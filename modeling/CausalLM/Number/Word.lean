/-!
# Number.Word — arithmetic at the edge of a 64-bit word

Sizes and counts are natural numbers.  Where a size is kept in a 64-bit word the library says so with one of the
operations here: a checked operation answers `none` when the exact result does not fit, a saturating one stops at
the largest word, a wrapping one starts again at zero.
-/

-- powers are those of core, also where a library on top brings its own
attribute [instance (20000), default_instance 20000] instPowNat

namespace CausalLM.Word

def max64 : Nat := 2 ^ 64 - 1

def max32 : Nat := 2 ^ 32 - 1

/-- The number, if it fits in a word. -/
def checked (n : Nat) : Option Nat := if n ≤ max64 then some n else none

def checkedAdd (a b : Nat) : Option Nat := checked (a + b)

def checkedMul (a b : Nat) : Option Nat := checked (a * b)

/-- The number, or the largest word if it is larger. -/
def clamp (n : Nat) : Nat := min n max64

def satAdd (a b : Nat) : Nat := clamp (a + b)

def satMul (a b : Nat) : Nat := clamp (a * b)

/-- What is left of the number in a word. -/
def wrap (n : Nat) : Nat := n % 2 ^ 64

def wrapAdd (a b : Nat) : Nat := wrap (a + b)

def wrapMul (a b : Nat) : Nat := wrap (a * b)

/-- The sum that stops at the largest word. -/
def satSum (l : List Nat) : Nat := l.foldl satAdd 0

/-- The product that stops at the largest word; a later zero still makes it zero. -/
def satProd (l : List Nat) : Nat := l.foldl satMul 1

/-- The least multiple of `unit` that is at least `n`. -/
def roundUp (unit n : Nat) : Nat := (n + unit - 1) / unit * unit

/-- Ceiling division; by zero it is zero. -/
def ceilDiv (n unit : Nat) : Nat := (n + unit - 1) / unit

theorem checked_eq_some_iff {n m : Nat} : checked n = some m ↔ n = m ∧ n ≤ max64 := by
  unfold checked; split
  · simp_all
  · rename_i h; simp [h]

theorem checked_eq_none_iff {n : Nat} : checked n = none ↔ max64 < n := by
  unfold checked; split <;> simp_all

theorem clamp_le (n : Nat) : clamp n ≤ max64 := Nat.min_le_right _ _

theorem clamp_of_le {n : Nat} (h : n ≤ max64) : clamp n = n := Nat.min_eq_left h

theorem wrap_of_le {n : Nat} (h : n ≤ max64) : wrap n = n := Nat.mod_eq_of_lt (Nat.lt_of_le_pred (by decide) h)

theorem wrapAdd_of_le {a b : Nat} (h : a + b ≤ max64) : wrapAdd a b = a + b := wrap_of_le h

theorem wrapMul_of_le {a b : Nat} (h : a * b ≤ max64) : wrapMul a b = a * b := wrap_of_le h

end CausalLM.Word
