import CausalLM.CommandLine.Arguments
import CausalLM.Generation
import CausalLM.Registry
/-!
# CommandLine.Session — what the program does

A session is a pure function of the arguments, the environment and the files: it gives the exit status, what is
written to the standard output, and the failure if there was one.
-/
namespace CausalLM.CommandLine

/-- **What the program finds when it is started.** -/
structure World where
  lookup : String → Option String
  home : Option String
  files : Files
  /-- What the generator starts from where no seed is given. -/
  entropy : UInt64

/-- **How the program ends.** -/
structure Outcome where
  status : Nat
  output : String
  /-- What the failure is, behind `Error: `. -/
  failure : Option String
  deriving DecidableEq, Repr

namespace Outcome

def success (output : String) : Outcome := ⟨0, output, none⟩

def failed (output message : String) : Outcome := ⟨1, output, some message⟩

def misused : Outcome := ⟨2, "", none⟩

/-- A generation that failed behind some output.  A panic ends the program without a message of its own. -/
def stopped (output : String) : Generation.Failure → Outcome
  | .error e => .failed output e.message
  | .panic => ⟨101, output, none⟩

end Outcome

def versionText : String := "llmodel 0.3.0\n"

def usageText : String := "Usage: llmodel run <MODEL> <PROMPT> [OPTIONS]\n       llmodel inspect <MODEL>\n"

def World.settings (w : World) : Settings := .ofVariables w.lookup w.home

def locate (w : World) (model : String) : Except String String :=
  match w.settings.resolve (fun path => (w.files path).isSome) model with
  | some path => .ok path
  | none => .error ("model '" ++ model ++ "' not found")

/-- The options of a run: a document, the environment, and the arguments, the later on top. -/
def optionsOf (w : World) (o : RunOptions) : Except String Generation.Options := do
  let base ← match o.options with
    | none => pure Generation.Options.default
    | some text => match (Json.ofString? text).bind Json.members? with
      | some members => pure (Generation.Options.ofMembers members)
      | none => throw "--options must be a JSON object"
  let base := base.withSettings w.settings
  let s := base.sampling
  return { base with
    maxTokens := o.maxTokens.getD base.maxTokens
    seed := o.seed.or base.seed
    sampling := { s with
      temperature := o.temperature.getD s.temperature
      topK := o.topK.getD s.topK
      topP := o.topP.getD s.topP
      penalty := o.penalty.getD s.penalty } }

/-- The text of a failure behind what was being done. -/
def during (doing : String) (e : Error) : String := doing ++ ": " ++ e.message

def open? (w : World) (path : String) (context : String → Error → String) : Except String Decoder.Engine := do
  let engine ← match (Registry.standard (.new w.entropy 1)).select w.files path with
    | .ok engine => pure engine
    | .error e => throw (context ("selecting backend for " ++ path) e)
  match Decoder.Engine.requiredBytes w.files path with
  | .ok _ => pure ()
  | .error e => throw e.message
  match engine.load w.files path 0 with
  | (.ok (), engine) => pure engine
  | (.error e, _) => throw (context ("loading " ++ path) e)

/-- Reads a generation to its end, or to its first failure; at most `limit` fragments. -/
def collect (limit : Nat) (g : Generation Decoder.Engine) (output : String) : Outcome :=
  match limit with
  | 0 => .success (output ++ "\n")
  | limit + 1 => match g.next with
    | (none, _) => .success (output ++ "\n")
    | (some (.ok text), g) => collect limit g (output ++ text)
    | (some (.error e), _) => .stopped output e

def runModel (w : World) (model prompt : String) (o : RunOptions) : Outcome :=
  match optionsOf w o with
  | .error message => .failed "" message
  | .ok options => match locate w model with
    | .error message => .failed "" message
    | .ok path => match open? w path during with
      | .error message => .failed "" message
      | .ok engine =>
        let engine := match o.threads.or w.settings.threads with
          | some n => engine.setThreads n
          | none => engine
        match Generation.start engine (Backend.newContext engine) prompt options with
        | .error (e, _) => .stopped "" e
        | .ok g => collect (g.budget + 2) g ""

def describe (engine : Decoder.Engine) (h : Hyperparameters) (required : Nat) : String :=
  String.join [
    "architecture:    ", Backend.architecture engine, "\n",
    "context length:  ", toString h.context, "\n",
    "embedding:       ", toString h.width, "\n",
    "heads:           ", toString h.heads, " (", toString h.headsKV, " kv)\n",
    "layers:          ", toString h.layers, "\n",
    "feed forward:    ", toString h.feedForward, "\n",
    "vocabulary:      ", toString h.vocab, "\n",
    "required memory: ", toString required, " bytes\n",
    "end tokens:      ", Text.quotedList ((Backend.endTokens engine).map (Backend.tokenText engine)), "\n"]

def inspectModel (w : World) (model : String) : Outcome :=
  match locate w model with
  | .error message => .failed "" message
  | .ok path => match open? w path fun _ e => e.message with
    | .error message => .failed "" message
    | .ok engine => match engine.hyperparameters, Decoder.Engine.requiredBytes w.files path with
      | some h, .ok required => .success (describe engine h required)
      | none, _ => .failed "" "backend reported no hyperparameters"
      | _, .error e => .failed "" e.message

/-- **What the program does.** -/
def session (w : World) (arguments : List String) : Outcome :=
  match Request.ofArguments arguments with
  | .command (.run model prompt options) => runModel w model prompt options
  | .command (.inspect model) => inspectModel w model
  | .help => .success usageText
  | .version => .success versionText
  | .misuse => .misused

def paths (w : World) (arguments : List String) : List String :=
  match Request.ofArguments arguments with
  | .command (.run model _ _) | .command (.inspect model) => w.settings.candidates model
  | _ => []

end CausalLM.CommandLine
