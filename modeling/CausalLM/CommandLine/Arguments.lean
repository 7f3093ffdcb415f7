import CausalLM.Settings
import CausalLM.Text.Decimal
/-!
# CommandLine.Arguments — what the program is asked to do

There are two commands: `run` with a model, a prompt and options, and `inspect` with a model.  An option is written
`--name value` or `--name=value` and may stand once, anywhere behind the command; behind a lone `--` everything is a
plain argument.  Arguments are read from the left, and the first that makes no sense or calls for help decides.
-/
namespace CausalLM.CommandLine

/-- **The options of `run`**, as far as they were given. -/
structure RunOptions where
  maxTokens : Option Nat
  temperature : Option Single
  topK : Option Nat
  topP : Option Single
  penalty : Option Single
  threads : Option Nat
  seed : Option Nat
  /-- A document of further options. -/
  options : Option String
  deriving DecidableEq, Repr

/-- **What the program is asked to do.** -/
inductive Command where
  | run (model prompt : String) (options : RunOptions)
  | inspect (model : String)
  deriving DecidableEq, Repr

/-- **What the arguments come to.** -/
inductive Request where
  | command (c : Command)
  | help
  | version
  /-- The arguments make no sense. -/
  | misuse
  deriving DecidableEq, Repr

/-- What an option becomes: a value that can be read, if none was given before. -/
def once {α : Type} (given read : Option α) : Option (Option α) :=
  if given.isSome then none else read.map some

namespace RunOptions

def empty : RunOptions := ⟨none, none, none, none, none, none, none, none⟩

/-- Gives an option its value.  There is no such option, it is given already, or the text is no value of it: `none`. -/
def set? (o : RunOptions) (name text : String) : Option RunOptions :=
  match name with
  | "max-tokens" => (once o.maxTokens (Settings.readNat text)).map ({ o with maxTokens := · })
  | "temp" => (once o.temperature (Decimal.readSingle text)).map ({ o with temperature := · })
  | "top-k" => (once o.topK (Settings.readNat text)).map ({ o with topK := · })
  | "top-p" => (once o.topP (Decimal.readSingle text)).map ({ o with topP := · })
  | "repeat-penalty" => (once o.penalty (Decimal.readSingle text)).map ({ o with penalty := · })
  | "threads" => (once o.threads (Settings.readNat text)).map ({ o with threads := · })
  | "seed" => (once o.seed (Settings.readNat text)).map ({ o with seed := · })
  | "options" => (once o.options (some text)).map ({ o with options := · })
  | _ => none

end RunOptions

/-- **What a command takes.** -/
structure Form where
  /-- How many plain arguments it has. -/
  plain : Nat
  /-- It has the options of `run`. -/
  takesOptions : Bool
  deriving DecidableEq, Repr

/-- The form of `run`: a model, a prompt and options. -/
def Form.run : Form := ⟨2, true⟩

/-- The form of `inspect`: a model. -/
def Form.inspect : Form := ⟨1, false⟩

/-- The options given so far, and the plain arguments, in reverse. -/
structure Parts where
  options : RunOptions
  plain : List String
  deriving DecidableEq, Repr

namespace Parts

def empty : Parts := ⟨.empty, []⟩

/-- One plain argument more, if the command has one more. -/
def addPlain? (form : Form) (p : Parts) (arg : String) : Option Parts :=
  if p.plain.length < form.plain then some { p with plain := arg :: p.plain } else none

/-- One option more, if the command has it. -/
def addOption? (form : Form) (p : Parts) (name text : String) : Option Parts :=
  if form.takesOptions then (p.options.set? name text).map ({ p with options := · }) else none

end Parts

/-- **What the arguments behind a command come to.** -/
inductive Reading where
  | parts (p : Parts)
  | help
  | misuse
  deriving DecidableEq, Repr

/-- Takes the arguments behind a command apart, one after the other: the first that makes no sense, or calls for help,
decides. -/
def takeApart (form : Form) (parts : Parts) : List String → Reading
  | [] => .parts parts
  | arg :: rest =>
    match arg.toList with
    | ['-', '-'] => match rest.foldlM (Parts.addPlain? form) parts with
      | some parts => .parts parts
      | none => .misuse
    | '-' :: '-' :: body =>
      let name := String.ofList (body.takeWhile (· ≠ '='))
      match body.dropWhile (· ≠ '=') with
      | _ :: value => match parts.addOption? form name (String.ofList value) with
        | some parts => takeApart form parts rest
        | none => .misuse
      | [] =>
        if name = "help" then .help
        else match rest with
          | [] => .misuse
          | value :: rest =>
            if value.startsWith "-" ∧ value ≠ "-" then .misuse
            else match parts.addOption? form name value with
              | some parts => takeApart form parts rest
              | none => .misuse
    | '-' :: 'h' :: _ => .help
    | '-' :: _ :: _ => .misuse
    | _ => match parts.addPlain? form arg with
      | some parts => takeApart form parts rest
      | none => .misuse

def topics : List String := ["run", "inspect", "help"]

/-- **What the arguments ask for.** -/
def Request.ofArguments : List String → Request
  | "run" :: rest => match takeApart .run .empty rest with
    | .parts ⟨options, [prompt, model]⟩ => .command (.run model prompt options)
    | .parts _ | .misuse => .misuse
    | .help => .help
  | "inspect" :: rest => match takeApart .inspect .empty rest with
    | .parts ⟨_, [model]⟩ => .command (.inspect model)
    | .parts _ | .misuse => .misuse
    | .help => .help
  | "help" :: about => match about with
    | [] => .help
    | [topic] => if topics.contains topic then .help else .misuse
    | _ => .misuse
  | "--help" :: _ => .help
  | "--version" :: _ => .version
  | arg :: _ => match arg.toList with
    | '-' :: 'h' :: _ => .help
    | '-' :: 'V' :: _ => .version
    | _ => .misuse
  | [] => .misuse

end CausalLM.CommandLine
