import CausalLM.Generation.Options
import CausalLM.Generation.Run
/-!
# Generation — text, fragment by fragment

A generation starts by evaluating a prompt on top of what the context holds, or goes on from a restored state.  Then
every call of `next` samples and evaluates tokens until there is text to show.  The bytes of a character may come from
several tokens; bytes that could still become a character are held back.  A generation ends at an end token, when its
budget is used up, or with a failure, and from then on nothing comes.
-/
namespace CausalLM

/-- **Why a generation stopped.** -/
inductive StopReason where
  | endToken | maxTokens | contextFull | error
  deriving DecidableEq, Repr, Inhabited

/-- **A generation under way.** -/
structure Generation (σ : Type) where
  run : Generation.Run σ
  /-- How many tokens may be generated in all. -/
  budget : Nat
  /-- The tokens generated so far, without an end token. -/
  generated : List Token
  /-- Bytes that are not yet a character. -/
  held : Bytes
  promptTokens : Nat
  /-- How many tokens were generated so far. -/
  count : Nat
  /-- Why it stopped, once it has. -/
  stop : Option StopReason
  /-- Nothing comes any more. -/
  done : Bool

namespace Generation

/-- **What a generation reports of itself.** -/
structure Stats where
  promptTokens : Nat
  generatedTokens : Nat
  recycled : Nat
  stop : Option StopReason
  deriving DecidableEq, Repr

variable {σ : Type} [Backend σ]

/-- A generation that failed to start, with what it worked on as it is afterwards. -/
abbrev Start (σ : Type) := Except (Failure × Run σ) (Generation σ)

/-- What `next` gives: a fragment, a failure, or nothing more.  A call that panics does not come back, which stands here
as a failure too. -/
abbrev Item := Option (Except Failure String)

def isDone (g : Generation σ) : Bool := g.done

def stats (g : Generation σ) : Stats := ⟨g.promptTokens, g.count, g.run.recycled, g.stop⟩

/-! ## Starting -/

/-- The context as the options and the backend want it. -/
def configure (b : σ) (c : Context) (o : Options) : Context :=
  { c with capacity := Backend.contextLength b, batch := o.batch, sampling := o.sampling, erase := o.erase }

/-- Checks the backend and the options, then sets the context. -/
def prepare (b : σ) (c : Context) (o : Options) : Except Error Context :=
  if !Backend.isLoaded b then .error .notLoaded
  else match o.validate with
    | .error e => .error e
    | .ok () => .ok (configure b c o)

/-- A generation with nothing generated yet.  Without recycling its budget ends with the context. -/
def begin (r : Run σ) (o : Options) (promptTokens : Nat) : Generation σ where
  run := r
  budget := if r.context.erase.isSome then o.maxTokens else min o.maxTokens r.context.remaining
  generated := []
  held := []
  promptTokens := promptTokens
  count := 0
  stop := none
  done := false

/-- **Starts a generation from a prompt** on top of what the context holds. -/
def start (b : σ) (c : Context) (prompt : String) (o : Options) : Start σ :=
  match prepare b c o with
  | .error e => .error (.error e, ⟨b, c, 0⟩)
  | .ok c =>
    let b := match o.seed with
      | some seed => Backend.setSeed b (UInt64.ofNat seed)
      | none => b
    let r : Run σ := ⟨b, c, 0⟩
    match Backend.tokenize b c prompt with
    | .error e => .error (.error e, r)
    | .ok tokens =>
      if tokens.isEmpty ∧ c.position = 0 then .error (.error (.config "prompt produced no tokens"), r)
      else if c.capacity < c.position + tokens.length ∧ c.erase.isNone then
        .error (.error (.contextOverflow c.position tokens.length c.capacity), r)
      else match r.feedAll (chunks c.batch tokens) with
        | (.error e, r) => .error (e, r)
        | (.ok (), r) => .ok (begin r o tokens.length)

/-- **Goes on from the state the backend holds.**  Nothing is evaluated again, and the generator goes on from where it
is. -/
def resume (b : σ) (c : Context) (o : Options) : Start σ :=
  match prepare b c o with
  | .error e => .error (.error e, ⟨b, c, 0⟩)
  | .ok c =>
    let r : Run σ := ⟨b, c, 0⟩
    let n := (Backend.evaluated b).length
    if c.position ≠ n then
      .error (.error (.config ("context at position " ++ toString c.position ++ " but backend holds " ++ toString n ++
        " tokens")), r)
    else .ok (begin r o 0)

/-! ## Going on -/

/-- Stops, and gives what is held back if there is any. -/
def finish (g : Generation σ) (reason : StopReason) : Item × Generation σ :=
  if g.held.isEmpty then (none, { g with stop := some reason, done := true })
  else (some (.ok (Utf8.toStringLossy g.held)), { g with stop := some reason, done := true, held := [] })

/-- Stops for an error.  A panic leaves everything as it is at that point. -/
def fail (g : Generation σ) : Failure → Item × Generation σ
  | .error e => (some (.error (.error e)), { g with stop := some .error, done := true })
  | .panic => (some (.error .panic), g)

/-- Takes in a token: its bytes go behind the ones held back, and what is certain of them is text. -/
def accept (g : Generation σ) (t : Token) : List Char × Generation σ :=
  let (text, held) := Utf8.drain (g.held ++ Backend.tokenBytes g.run.backend t)
  (text, { g with generated := g.generated ++ [t], count := g.count + 1, held })

/-- **The next fragment.** -/
def next (g : Generation σ) : Item × Generation σ :=
  if g.isDone then (none, g)
  else if g.budget ≤ g.count then
    g.finish (if g.run.context.remaining = 0 then .contextFull else .maxTokens)
  else match g.run.step with
    | (.error e, run) => { g with run }.fail e
    | (.ok none, run) => { g with run }.finish .endToken
    | (.ok (some t), run) =>
      let taken := { g with run }.accept t
      if taken.1.isEmpty then next taken.2 else (some (.ok (String.ofList taken.1)), taken.2)
termination_by g.budget - g.count
decreasing_by
  show g.budget - (g.count + 1) < _
  omega

end Generation
end CausalLM
