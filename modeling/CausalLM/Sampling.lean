import CausalLM.Memory
import CausalLM.Number.Double
import CausalLM.Random
import CausalLM.Text.Decimal
import CausalLM.Token
/-!
# Sampling — choosing the next token from logits

`Sampling.draw` turns a vector of logits into one token.  Tokens that occurred recently are penalised; then, at
temperature zero or below, the largest logit wins.  Otherwise the candidates are put in order, cut to the best few,
turned into probabilities, cut to the likeliest mass, and one is drawn with the generator.
-/
namespace CausalLM

/-- **The knobs of sampling.** -/
structure Sampling where
  /-- At zero or below the most likely token is taken. -/
  temperature : Single
  /-- How many candidates are kept; zero keeps all. -/
  topK : Nat
  /-- How much probability is kept. -/
  topP : Single
  /-- What the logit of a recent token is divided by, or multiplied with where it is negative. -/
  penalty : Single
  /-- How many trailing tokens count as recent. -/
  penaltyWindow : Nat
  deriving DecidableEq, Repr, Inhabited

namespace Sampling

/-- Temperature 0.9, the best 40, nine tenths of the mass, penalty 1.1 over 64 tokens. -/
def default : Sampling where
  temperature := ⟨0x3f666666⟩
  topK := 40
  topP := ⟨0x3f666666⟩
  penalty := ⟨0x3f8ccccd⟩
  penaltyWindow := 64

/-- Always the most likely token, without a penalty. -/
def greedy : Sampling where
  temperature := .zero
  topK := 1
  topP := .one
  penalty := .one
  penaltyWindow := 0

/-- **The knobs are in range.** -/
def validate (p : Sampling) : Except Error Unit :=
  if !p.temperature.isFinite then
    .error (.config ("temperature " ++ Decimal.ofSingle p.temperature ++ " is not finite"))
  else if !(Single.zero.lt p.topP && p.topP.le .one) then
    .error (.config ("top_p " ++ Decimal.ofSingle p.topP ++ " outside (0, 1]"))
  else if !(p.penalty.isFinite && Single.zero.lt p.penalty) then
    .error (.config ("repeat_penalty " ++ Decimal.ofSingle p.penalty ++ " must be positive"))
  else .ok ()

/-- A token's index and its logit. -/
abbrev Candidate := Nat × Single

/-! ## Penalty -/

/-- A penalised logit. -/
def penalise (penalty x : Single) : Single := if x.lt .zero then x * penalty else x / penalty

/-- **Penalises each recent token once**, however often it occurred.  Numbers outside the vocabulary count for
nothing. -/
def applyPenalty (p : Sampling) (recent : List Token) (logits : List Candidate) : List Candidate :=
  if p.penalty.eq .one || recent.isEmpty then logits
  else
    let seen := recent.filterMap Token.index?
    logits.map fun (i, x) => if seen.contains i then (i, penalise p.penalty x) else (i, x)

/-! ## The most likely token -/

/-- The better of two candidates; the first stays unless the second is larger. -/
def better (a b : Candidate) : Candidate := if a.2.lt b.2 then b else a

/-- The first candidate with the largest logit. -/
def argmax (first : Candidate) (rest : List Candidate) : Candidate := rest.foldl better first

/-! ## The draw -/

/-- Larger logits come first, and of equal ones the lower index. -/
def precedes (a b : Candidate) : Bool :=
  decide (b.2.rank < a.2.rank) || (decide (a.2.rank = b.2.rank) && decide (a.1 ≤ b.1))

/-- The candidates in order, cut to the best few. -/
def ranked (p : Sampling) (candidates : List Candidate) : List Candidate :=
  let scaled := candidates.map fun (i, x) => (i, x / p.temperature)
  let sorted := scaled.mergeSort precedes
  if p.topK = 0 then sorted else sorted.take p.topK

/-- The sum from the left; the sum of nothing is `-0`. -/
def total (l : List Double) : Double := l.foldl (· + ·) .negZero

/-- The probabilities of candidates in order, before they are cut. -/
def probabilities (candidates : List Candidate) : List Double :=
  let top := (candidates.head?.map (·.2)).getD .zero
  let powers := candidates.map fun (_, x) => (x - top).widen.exp
  let sum := total powers
  powers.map (· / sum)

/-- How many of the probabilities reach `mass` together, on top of `sum`; all, if they do not. -/
def reach (mass sum : Double) : List Double → Nat
  | [] => 0
  | q :: rest =>
    let sum := sum + q
    if mass.le sum then 1 else 1 + reach mass sum rest

/-- The probabilities cut to the mass that is kept. -/
def cutMass (p : Sampling) (l : List Double) : List Double :=
  if p.topP.lt .one then l.take (reach p.topP.widen .zero l) else l

/-- The place of the first probability at which the sum on top of `sum` passes `r`; the last place, if none does. -/
def pick (r sum : Double) : List Double → Nat
  | [] => 0
  | q :: rest =>
    let sum := sum + q
    if r.lt sum || rest.isEmpty then 0 else 1 + pick r sum rest

/-- **Draws the next token.**  The generator moves by one step if it is used at all. -/
def draw (p : Sampling) (logits : Vec) (recent : List Token) (g : Generator) : Except Error Token × Generator :=
  match applyPenalty p recent ((List.range logits.length).zip logits) with
  | [] => (.error .notReady, g)
  | first :: rest =>
    if p.temperature.le .zero then (.ok (.ofIndex (argmax first rest).1), g)
    else
      let candidates := ranked p (first :: rest)
      let kept := cutMass p (probabilities candidates)
      let (u, g) := g.nextUnit
      let place := pick (u * total kept) .zero kept
      (.ok (.ofIndex ((candidates[place]?.map (·.1)).getD 0)), g)

end Sampling
end CausalLM
