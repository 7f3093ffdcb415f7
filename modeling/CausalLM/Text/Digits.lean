/-!
# Text.Digits — whole numbers in decimal digits

Settings, arguments and documents write whole numbers in the ten ASCII digits, the most significant first.
-/
namespace CausalLM.Digits

def value (ds : List Char) : Nat := ds.foldl (fun n c => n * 10 + (c.toNat - 48)) 0

/-- **The number that a text of digits alone stands for**; there has to be one. -/
def read? (s : List Char) : Option Nat := if s.isEmpty || !s.all Char.isDigit then none else some (value s)

/-- Takes one sign off the front: whether it was a minus, and what is left. -/
def splitSign : List Char → Bool × List Char
  | '-' :: s => (true, s)
  | '+' :: s => (false, s)
  | s => (false, s)

/-- **The number that a text of digits stands for**, possibly behind a sign. -/
def readInt? (s : List Char) : Option Int :=
  let (minus, ds) := splitSign s
  (read? ds).map fun n => if minus then -(n : Int) else n

end CausalLM.Digits
