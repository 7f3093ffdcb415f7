import CausalLM.Json
import CausalLM.Sampling
import CausalLM.Settings
/-!
# Generation.Options — what a generation may do

Options come as a document of their own, where every member has to be right, or as loose members on top of the
defaults, where what cannot be used is passed over.
-/
namespace CausalLM.Generation

/-- **The options of a generation.** -/
structure Options where
  maxTokens : Nat
  /-- Prompt tokens evaluated at once. -/
  batch : Nat
  sampling : Sampling
  /-- The share of a full history that is dropped; without one a full history ends the generation. -/
  erase : Option Single
  seed : Option Nat
  deriving DecidableEq, Repr

namespace Options

/-- The number of tokens of options that do not say. -/
def defaultMaxTokens : Nat := 200

def default : Options where
  maxTokens := defaultMaxTokens
  batch := 9
  sampling := .default
  erase := none
  seed := none

/-! ## Loose members -/

/-- The member under a name; of several the last. -/
def member? (members : List (String × Json)) (name : String) : Option Json :=
  (members.reverse.find? (·.1 == name)).map (·.2)

/-- A whole number under one of two names; the second counts only where the first is absent. -/
def natOf (members : List (String × Json)) (name other : String) : Option Nat :=
  ((member? members name).or (member? members other)).bind Json.nat?

def singleOf (members : List (String × Json)) (name : String) : Option Single :=
  ((member? members name).bind Json.double?).map Double.toSingle

/-- **The defaults with loose members on top.**  Unknown names and values of another kind are passed over. -/
def ofMembers (members : List (String × Json)) : Options :=
  let nat := fun name fallback => (((member? members name).bind Json.nat?)).getD fallback
  let single := fun name fallback => (singleOf members name).getD fallback
  let s := Sampling.default
  { maxTokens := (natOf members "num_predict" "max_tokens").getD default.maxTokens
    batch := (natOf members "batch_size" "n_batch").getD default.batch
    sampling :=
      { temperature := single "temperature" s.temperature
        topK := nat "top_k" s.topK
        topP := single "top_p" s.topP
        penalty := single "repeat_penalty" s.penalty
        penaltyWindow := nat "repeat_last_n" s.penaltyWindow }
    erase := singleOf members "context_erase"
    seed := (member? members "seed").bind Json.nat? }

/-! ## Documents -/

def memberNames : List String :=
  ["max_tokens", "n_batch", "temperature", "top_k", "top_p", "repeat_penalty", "repeat_last_n", "context_erase", "seed"]

def toSingle : Json.Number → Single
  | .natural n => Single.ofNat n
  | .negative n => ⟨(Single.ofNat n).bits ^^^ 0x80000000⟩
  | .floating x => x.toSingle

def wholeNumber : Json → Option Nat := Json.nat?

def number : Json → Option Single
  | .number n => some (toSingle n)
  | _ => none

/-- A value that has to be right or null. -/
def nullable {α : Type} (read : Json → Option α) : Json → Option (Option α)
  | .null => some none
  | v => (read v).map some

/-- The member under a name, which has to be right; the fallback where there is none. -/
def read {α : Type} (members : List (String × Json)) (name : String) (fallback : α) (read : Json → Option α) :
    Option α :=
  match members.lookup name with
  | some v => read v
  | none => some fallback

def distinct (members : List (String × Json)) : Bool :=
  memberNames.all fun name => (members.filter (·.1 == name)).length ≤ 1

/-- **The options in a document**: an object whose known members are right and stand once. -/
def ofJson : Json → Option Options
  | .object members =>
    if !distinct members then none
    else do
      let s := Sampling.default
      let maxTokens ← read members "max_tokens" default.maxTokens wholeNumber
      let batch ← read members "n_batch" default.batch wholeNumber
      let temperature ← read members "temperature" s.temperature number
      let topK ← read members "top_k" s.topK wholeNumber
      let topP ← read members "top_p" s.topP number
      let penalty ← read members "repeat_penalty" s.penalty number
      let penaltyWindow ← read members "repeat_last_n" s.penaltyWindow wholeNumber
      let erase ← read members "context_erase" none (nullable number)
      let seed ← read members "seed" none (nullable wholeNumber)
      return { maxTokens, batch, sampling := { temperature, topK, topP, penalty, penaltyWindow }, erase, seed }
  | _ => none

/-- A number in a document; one that is not finite has no form but null. -/
def writeSingle (x : Single) : Json := if x.isFinite then .number (.floating x.widen) else .null

/-- **The document of options.** -/
def toJson (o : Options) : Json := .object [
  ("max_tokens", .number (.natural o.maxTokens)),
  ("n_batch", .number (.natural o.batch)),
  ("temperature", writeSingle o.sampling.temperature),
  ("top_k", .number (.natural o.sampling.topK)),
  ("top_p", writeSingle o.sampling.topP),
  ("repeat_penalty", writeSingle o.sampling.penalty),
  ("repeat_last_n", .number (.natural o.sampling.penaltyWindow)),
  ("context_erase", (o.erase.map writeSingle).getD .null),
  ("seed", (o.seed.map fun n => Json.number (.natural n)).getD .null)]

/-- The options are equal, numbers compared by value. -/
def sameAs (o p : Options) : Bool :=
  let s := o.sampling
  let t := p.sampling
  let erase := match o.erase, p.erase with
    | some x, some y => x.eq y
    | none, none => true
    | _, _ => false
  o.maxTokens == p.maxTokens && o.batch == p.batch && o.seed == p.seed && erase &&
    s.temperature.eq t.temperature && s.topK == t.topK && s.topP.eq t.topP && s.penalty.eq t.penalty &&
    s.penaltyWindow == t.penaltyWindow

/-! ## Use -/

/-- **The environment fills in what the options leave open**: a seed where there is none, and a number of tokens where
it is the default one. -/
def withSettings (o : Options) (s : Settings) : Options :=
  { o with
    seed := o.seed.or s.seed
    maxTokens := match s.maxTokens with
      | some n => if o.maxTokens = defaultMaxTokens then n else o.maxTokens
      | none => o.maxTokens }

/-- **The options are in range.** -/
def validate (o : Options) : Except Error Unit :=
  match o.sampling.validate with
  | .error e => .error e
  | .ok () =>
    if o.batch = 0 then .error (.config "n_batch must be at least 1")
    else match o.erase with
      | none => .ok ()
      | some f =>
        if Single.zero.lt f && f.lt .one then .ok ()
        else .error (.config ("context_erase " ++ Decimal.ofSingle f ++ " outside (0, 1)"))

end Options
end CausalLM.Generation
