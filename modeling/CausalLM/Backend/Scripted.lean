import CausalLM.Backend
import CausalLM.Text.Digits
import CausalLM.WeightStore
/-!
# Backend.Scripted — a backend that follows a script

Stands in for a model where only the course of a generation matters.  It samples the tokens of its script in order,
evaluates by writing tokens down, can be told to fail at a given call, and saves its history as words of four bytes.
-/
namespace CausalLM

/-- **A script and how far it has been played.** -/
structure Scripted where
  script : List Token
  pieces : List Bytes
  capacity : Nat := 64
  loaded : Bool := true
  ends : List Token := [⟨0⟩]
  /-- The number of evaluations after which one fails. -/
  failEvaluateAt : Option Nat := none
  /-- The number of samples after which one fails. -/
  failSampleAt : Option Nat := none
  failReset : Bool := false
  history : List Token := []
  samples : Nat := 0
  evaluations : Nat := 0
  seed : Option UInt64 := none

namespace Scripted

/-- A word of a prompt: a number is the token of that number, and every other word is token 1. -/
def wordToken (word : String) : Token :=
  match Digits.readInt? word.toList with
  | some n => if -(2 ^ 31) ≤ n ∧ n < 2 ^ 31 then .ofInt n else ⟨1⟩
  | none => ⟨1⟩

/-- The words between single spaces, as tokens. -/
def tokenize (text : String) : List Token := ((text.splitOn " ").filter (· ≠ "")).map wordToken

def piece (s : Scripted) (t : Token) : Bytes := ((t.index?).bind fun i => s.pieces[i]?).getD []

/-- Writes tokens down, where there is room for them. -/
def evaluate (s : Scripted) (c : Context) (l : List Token) : Except Error Unit × Scripted × Context :=
  if s.failEvaluateAt == some s.evaluations then (.error (.outOfMemory 1), s, c)
  else if s.capacity < c.position + l.length then (.error (.contextOverflow c.position l.length s.capacity), s, c)
  else
    (.ok (), { s with evaluations := s.evaluations + 1, history := s.history ++ l },
      { c with tokens := c.tokens ++ l, position := c.position + l.length })

/-- The next token of the script; zero behind its end. -/
def sample (s : Scripted) : Except Error Token × Scripted :=
  if s.failSampleAt == some s.samples then (.error .notReady, s)
  else (.ok ((s.script[s.samples]?).getD ⟨0⟩), { s with samples := s.samples + 1 })

/-- Writes the history over the front of a buffer. -/
def save (s : Scripted) (buffer : Bytes) : Except Error (Nat × Bytes) :=
  let b := s.history.flatMap fun t => Bytes.ofInt 4 t.toInt
  if buffer.length < b.length then .error (.config "scripted") else .ok (b.length, b ++ buffer.drop b.length)

/-- Takes the history from a buffer of whole words. -/
def restore (s : Scripted) (buffer : Bytes) : Except Error Nat × Scripted :=
  if buffer.length % 4 ≠ 0 then (.error (.corruptState "scripted"), s)
  else
    let history := (WeightStore.groups 3 (buffer.length / 4) buffer).map fun b => Token.ofInt (Bytes.toInt b)
    (.ok buffer.length, { s with history })

instance : Backend Scripted where
  architecture := fun _ => "scripted"
  isLoaded := Scripted.loaded
  contextLength := Scripted.capacity
  endTokens := Scripted.ends
  tokenize := fun _ _ text => .ok (tokenize text)
  tokenBytes := piece
  evaluate := evaluate
  sample := fun s _ => s.sample
  reset := fun s => if s.failReset then (.error .notLoaded, s) else (.ok (), { s with history := [] })
  evaluated := Scripted.history
  setSeed := fun s seed => { s with seed := some seed }
  stateBytes := fun s => 4 * s.history.length
  save := save
  restore := restore
  hyperparameters := fun _ => none
  memoryUsage := fun _ => .none

end Scripted
end CausalLM
