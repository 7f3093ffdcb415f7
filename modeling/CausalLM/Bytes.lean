import CausalLM.Number.Word
/-!
# Bytes — little-endian words in byte strings

A file, a snapshot and a buffer are lists of bytes.  `Bytes.ofNat` and `Bytes.toNat` convert between a number and its
little-endian bytes, and `Bytes.split?` takes a field of known width off the front.
-/
namespace CausalLM

abbrev Bytes := List UInt8

/-- What is left of `s` after a field was taken off its front. -/
abbrev Bytes.Left (s : Bytes) := { r : Bytes // r.length < s.length }

namespace Bytes

/-- The number whose little-endian bytes these are. -/
def toNat (b : Bytes) : Nat := b.foldr (fun x n => x.toNat + 256 * n) 0

/-- The `width` low bytes of `n`, the least first. -/
def ofNat : (width n : Nat) → Bytes
  | 0, _ => []
  | width + 1, n => UInt8.ofNat n :: ofNat width (n / 256)

/-- The two's complement number whose little-endian bytes these are. -/
def toInt (b : Bytes) : Int := Int.bmod b.toNat (256 ^ b.length)

/-- The two's complement of `n` in `width` bytes. -/
def ofInt (width : Nat) (n : Int) : Bytes := ofNat width (n % (256 ^ width : Nat)).toNat

/-- The first `n` bytes and the rest, if there are `n`. -/
def split? (n : Nat) (s : Bytes) : Option (Bytes × Bytes) :=
  let (front, rest) := s.splitAt n
  if front.length = n then some (front, rest) else none

@[simp] theorem length_ofNat (width : Nat) : ∀ n, (ofNat width n).length = width := by
  induction width with
  | zero => intro n; rfl
  | succ width ih => intro n; simp [ofNat, ih]

theorem toNat_ofNat (width : Nat) : ∀ n, toNat (ofNat width n) = n % 256 ^ width := by
  induction width with
  | zero => intro n; simp [ofNat, toNat, Nat.mod_one]
  | succ width ih =>
    intro n
    have h : toNat (ofNat (width + 1) n) = (UInt8.ofNat n).toNat + 256 * toNat (ofNat width (n / 256)) := rfl
    rw [h, ih, UInt8.toNat_ofNat', show 256 ^ (width + 1) = 256 * 256 ^ width by rw [Nat.pow_succ, Nat.mul_comm],
      Nat.mod_mul]

theorem split?_eq_some_iff {n : Nat} {s front rest : Bytes} :
    split? n s = some (front, rest) ↔ s = front ++ rest ∧ front.length = n := by
  unfold split?
  rw [List.splitAt_eq]
  dsimp only
  constructor
  · intro h
    split at h
    · rename_i hn
      simp only [Option.some.injEq, Prod.mk.injEq] at h
      obtain ⟨rfl, rfl⟩ := h
      exact ⟨(List.take_append_drop n s).symm, hn⟩
    · cases h
  · rintro ⟨rfl, rfl⟩
    simp

theorem split?_eq_none_iff {n : Nat} {s : Bytes} : split? n s = none ↔ s.length < n := by
  unfold split?
  rw [List.splitAt_eq]
  simp only [List.length_take]
  split <;> simp <;> omega

end Bytes
end CausalLM
