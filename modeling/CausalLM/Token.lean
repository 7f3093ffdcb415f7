/-!
# Token — what a model reads and writes

A token is a signed 32-bit number.  The ones a model knows are the indices into its vocabulary; a negative number is
never one.
-/
namespace CausalLM

/-- **A token.** -/
structure Token where
  id : Int32
  deriving DecidableEq, Repr, Inhabited

namespace Token

def toInt (t : Token) : Int := t.id.toInt

def ofInt (n : Int) : Token := ⟨Int32.ofInt n⟩

def ofIndex (n : Nat) : Token := ⟨Int32.ofNat n⟩

/-- The index into the vocabulary, unless the number is negative. -/
def index? (t : Token) : Option Nat := if 0 ≤ t.toInt then some t.toInt.toNat else none

/-- The token is one of the first `n`. -/
def isBelow (n : Nat) (t : Token) : Bool := decide (0 ≤ t.toInt) && decide (t.toInt < n)

def text (t : Token) : String := toString t.toInt

/-- An index that fits in 31 bits is that of its token. -/
theorem index?_ofIndex {n : Nat} (h : n < 2 ^ 31) : (ofIndex n).index? = some n := by
  have hint : (ofIndex n).toInt = n := Int32.toInt_ofNat_of_lt h
  rw [index?, hint, if_pos (Int.natCast_nonneg n), Int.toNat_natCast]

theorem isBelow_iff {n : Nat} {t : Token} : t.isBelow n = true ↔ ∃ i, t.index? = some i ∧ i < n := by
  unfold isBelow index?
  constructor
  · intro h
    simp only [Bool.and_eq_true, decide_eq_true_eq] at h
    exact ⟨t.toInt.toNat, if_pos h.1, by omega⟩
  · rintro ⟨i, hi, hn⟩
    split at hi
    · simp only [Option.some.injEq] at hi
      simp only [Bool.and_eq_true, decide_eq_true_eq]
      omega
    · cases hi

end Token
end CausalLM
