import CausalLM.Bytes
/-!
# Proofs.Bytes — words and their bytes are one to one

Bytes of a fixed width and the numbers below the power of 256 are the same thing: `ofNat_toNat` and `toNat_ofNat_of_lt`
are the two directions, `ofInt_toInt` and `toInt_ofInt` those of two's complement.
-/
namespace CausalLM.Bytes

@[simp] theorem toNat_cons (x : UInt8) (b : Bytes) : toNat (x :: b) = x.toNat + 256 * toNat b := rfl

theorem toNat_lt : ∀ b : Bytes, toNat b < 256 ^ b.length
  | [] => by decide
  | x :: b => by
    have ih := toNat_lt b
    have hx : x.toNat < 256 := x.toNat_lt
    rw [toNat_cons, List.length_cons, Nat.pow_succ]
    omega

/-- **Bytes are those of their number.** -/
theorem ofNat_toNat : ∀ b : Bytes, ofNat b.length (toNat b) = b
  | [] => rfl
  | x :: b => by
    have hx : x.toNat < 256 := x.toNat_lt
    have hlow : UInt8.ofNat (x.toNat + 256 * toNat b) = x := by
      apply UInt8.toNat_inj.1
      rw [UInt8.toNat_ofNat']
      omega
    have hhigh : (x.toNat + 256 * toNat b) / 256 = toNat b := by omega
    rw [toNat_cons, List.length_cons, ofNat, hlow, hhigh, ofNat_toNat b]

theorem toNat_ofNat_of_lt {width n : Nat} (h : n < 256 ^ width) : toNat (ofNat width n) = n := by
  rw [toNat_ofNat, Nat.mod_eq_of_lt h]

@[simp] theorem length_ofInt (width : Nat) (n : Int) : (ofInt width n).length = width := length_ofNat width _

/-- **Bytes are those of their two's complement.** -/
theorem ofInt_toInt (b : Bytes) : ofInt b.length (toInt b) = b := by
  have hlt := toNat_lt b
  have hmod : (toInt b % (256 ^ b.length : Nat)).toNat = toNat b := by
    rw [toInt, Int.bmod_emod, Int.emod_eq_of_lt (by omega) (by exact_mod_cast hlt), Int.toNat_natCast]
  rw [ofInt, hmod, ofNat_toNat]

theorem toInt_le (b : Bytes) : toInt b ≤ toNat b := by
  have hlt := toNat_lt b
  have hmod : (toNat b : Int) % (256 ^ b.length : Nat) = toNat b := Int.emod_eq_of_lt (by omega) (by exact_mod_cast hlt)
  rw [toInt, Int.bmod_def, hmod]
  split
  · exact Int.le_refl _
  · exact Int.sub_le_self _ (Int.natCast_nonneg _)

/-- A number is the two's complement of its bytes if it fits in them. -/
theorem toInt_ofInt (width : Nat) (n : Int) : toInt (ofInt width n) = Int.bmod n (256 ^ width) := by
  have hpos : (0 : Int) < (256 ^ width : Nat) := by exact_mod_cast Nat.pow_pos (by decide)
  have hnonneg := Int.emod_nonneg n (Int.ne_of_gt hpos)
  have hlt : (n % (256 ^ width : Nat)).toNat < 256 ^ width := by
    have := Int.emod_lt_of_pos n hpos
    omega
  rw [toInt, length_ofInt, ofInt, toNat_ofNat_of_lt hlt, Int.toNat_of_nonneg hnonneg, Int.emod_bmod]

end CausalLM.Bytes
