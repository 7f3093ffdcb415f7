import CausalLM.Number.Word
import Mathlib.Algebra.Order.BigOperators.Group.List
import Mathlib.Algebra.Order.Ring.Nat
import Mathlib.Order.Bounds.Basic
/-!
# Proofs.Number.Word — rounding up, and stopping at the largest word

`Word.roundUp` gives the first multiple there is (`isLeast_roundUp`).  A sum or a product that stops at the largest word
is the exact one or the largest word (`satSum_eq`, `satProd_eq`), so it is exact as soon as it is below.
-/
namespace CausalLM.Word

/-! ## Multiples -/

theorem le_roundUp {unit : Nat} (h : 0 < unit) (n : Nat) : n ≤ roundUp unit n := by
  unfold roundUp
  have hmod := Nat.mod_lt (n + unit - 1) h
  have hdiv := Nat.div_add_mod (n + unit - 1) unit
  rw [Nat.mul_comm] at hdiv
  omega

theorem roundUp_mod (unit n : Nat) : roundUp unit n % unit = 0 := Nat.mul_mod_left _ _

theorem isLeast_roundUp {unit : Nat} (h : 0 < unit) (n : Nat) : IsLeast {m | unit ∣ m ∧ n ≤ m} (roundUp unit n) := by
  refine ⟨⟨Nat.dvd_mul_left unit _, le_roundUp h n⟩, ?_⟩
  rintro _ ⟨⟨k, rfl⟩, hle⟩
  have hlt : (n + unit - 1) / unit < k + 1 := by
    rw [Nat.div_lt_iff_lt_mul h, Nat.add_mul, Nat.one_mul, Nat.mul_comm k]
    omega
  rw [roundUp, Nat.mul_comm]
  exact Nat.mul_le_mul_left unit (Nat.le_of_lt_succ hlt)

theorem roundUp_lt {unit : Nat} (h : 0 < unit) (n : Nat) : roundUp unit n < n + unit := by
  have hle : roundUp unit n ≤ n + unit - 1 := Nat.div_mul_le_self (n + unit - 1) unit
  omega

theorem roundUp_of_mod {unit n : Nat} (h : 0 < unit) (hmod : n % unit = 0) : roundUp unit n = n :=
  Nat.le_antisymm ((isLeast_roundUp h n).2 ⟨Nat.dvd_of_mod_eq_zero hmod, Nat.le_refl n⟩) (le_roundUp h n)

theorem roundUp_le_of_dvd {unit unit' : Nat} (hdvd : unit ∣ unit') (h : 0 < unit') (n : Nat) :
    roundUp unit n ≤ roundUp unit' n :=
  (isLeast_roundUp (Nat.pos_of_dvd_of_pos hdvd h) n).2 ⟨hdvd.trans (Nat.dvd_mul_left unit' _), le_roundUp h n⟩

/-- **Two units, one a multiple of the other, round to the same number** if the multiple of the larger one is nearer than
the smaller one. -/
theorem roundUp_eq_roundUp_iff {unit unit' : Nat} (hdvd : unit ∣ unit') (h : 0 < unit') (n : Nat) :
    roundUp unit n = roundUp unit' n ↔ roundUp unit' n < n + unit := by
  have hpos : 0 < unit := Nat.pos_of_dvd_of_pos hdvd h
  constructor
  · intro heq
    rw [← heq]
    exact roundUp_lt hpos n
  · intro hnear
    have hle := roundUp_le_of_dvd hdvd h n
    have hfirst := le_roundUp hpos n
    have hgap : unit ∣ roundUp unit' n - roundUp unit n :=
      Nat.dvd_sub (hdvd.trans (Nat.dvd_mul_left unit' _)) (Nat.dvd_mul_left unit _)
    have hnone := Nat.eq_zero_of_dvd_of_lt hgap (by omega)
    omega

/-! ## Sums and products that stop -/

theorem satAdd_of_le {a b : Nat} (h : a + b ≤ max64) : satAdd a b = a + b := clamp_of_le h

theorem satMul_of_le {a b : Nat} (h : a * b ≤ max64) : satMul a b = a * b := clamp_of_le h

theorem satAdd_min (a b : Nat) : satAdd (min a max64) b = min (a + b) max64 := by
  rw [satAdd, clamp]
  omega

theorem foldl_satAdd : ∀ (l : List Nat) (a : Nat), l.foldl satAdd (min a max64) = min (a + l.sum) max64
  | [], a => by rw [List.foldl_nil, List.sum_nil, Nat.add_zero]
  | b :: l, a => by rw [List.foldl_cons, satAdd_min, foldl_satAdd l, List.sum_cons, Nat.add_assoc]

/-- **The sum that stops at the largest word is the sum or the largest word.** -/
theorem satSum_eq (l : List Nat) : satSum l = min l.sum max64 := by
  have h := foldl_satAdd l 0
  rwa [Nat.zero_add] at h

theorem satMul_min (a b : Nat) : satMul (min a max64) b = min (a * b) max64 := by
  rw [satMul, clamp]
  rcases Nat.le_total a max64 with h | h
  · rw [Nat.min_eq_left h]
  · rw [Nat.min_eq_right h]
    cases b with
    | zero => rfl
    | succ b =>
      have hmax : max64 ≤ max64 * (b + 1) := Nat.le_mul_of_pos_right _ (Nat.succ_pos b)
      rw [Nat.min_eq_right hmax, Nat.min_eq_right (Nat.le_trans hmax (Nat.mul_le_mul_right _ h))]

theorem foldl_satMul : ∀ (l : List Nat) (a : Nat), l.foldl satMul (min a max64) = min (l.foldl (· * ·) a) max64
  | [], _ => rfl
  | b :: l, a => by rw [List.foldl_cons, List.foldl_cons, satMul_min, foldl_satMul l]

/-- The product that stops at the largest word is the product or the largest word. -/
theorem satProd_eq (l : List Nat) : satProd l = min (l.foldl (· * ·) 1) max64 := foldl_satMul l 1

end CausalLM.Word
