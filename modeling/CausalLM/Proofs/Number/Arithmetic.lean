import CausalLM.Number.Single
import Mathlib
/-!
# Proofs.Number.Arithmetic — what the machine makes of a number

The machine takes a number apart into a mantissa and an exponent, computes with these, and rounds what comes out.  A
number that fits already is not rounded (`Binary32.roundWithAccuracy_mul`), so dividing by one changes nothing
(`Single.div_one`).  A factor or a divisor that is finite and not zero makes no NaN (`Single.isNaN_mul`,
`Single.isNaN_div`).
-/
namespace CausalLM

namespace Binary32

open Float.Model (Format totalExponent)
open Float.Model.UnpackedFloat

variable {m : Nat} {e : Int} {s : Sign} {b : BitVec 32}

/-- **The finite numbers of the format**: a mantissa of 24 bits, or a shorter one at the least exponent. -/
structure Fits (m : Nat) (e : Int) : Prop where
  positive : 0 < m
  least : -149 ≤ e
  short : m < 2 ^ 24
  normal : 2 ^ 23 ≤ m ∨ e = -149

/-! ## Taking apart and putting together -/

theorem toNat_one_append (v : BitVec 23) : (1#1 ++ v).toNat = 2 ^ 23 + v.toNat := by
  rw [BitVec.toNat_append, ← Nat.shiftLeft_add_eq_or_of_lt v.isLt]
  rfl

theorem fits_of_unpack {hm : 0 < m} (h : unpack .binary32 b = .finite s m e hm) : Fits m e := by
  have hfraction : (@unpackMantissa .binary32 b).toNat < 2 ^ 23 :=
    (@unpackMantissa .binary32 b).isLt
  have hbias : (Format.binary32.exponentBias : Int) + (Format.binary32.mantissaBitsWithoutImplicit : Int) = 150 := rfl
  unfold unpack at h
  dsimp only at h
  split at h
  · split at h <;> cases h
  split at h
  · rename_i hsubnormal
    split at h <;> cases h
    rw [hsubnormal]
    exact ⟨hm, by decide, Nat.lt_trans hfraction (by decide), .inr rfl⟩
  · rename_i hnormal
    cases h
    have hexponent : (@unpackExponent .binary32 b).toNat ≠ 0 := fun h => hnormal (BitVec.eq_of_toNat_eq h)
    have hmantissa := toNat_one_append (@unpackMantissa .binary32 b)
    refine ⟨hm, ?_, ?_, .inl ?_⟩
    · rw [hbias]
      omega
    · exact Nat.lt_of_le_of_lt (Nat.le_of_eq hmantissa) (by omega)
    · exact Nat.le_trans (Nat.le_add_right _ _) (Nat.le_of_eq hmantissa.symm)

theorem isNaN_unpack_iff (b : BitVec 32) : (unpack .binary32 b).isNaN = true ↔
    @unpackExponent .binary32 b = -1#8 ∧ @unpackMantissa .binary32 b ≠ 0#23 := by
  unfold unpack
  dsimp only
  split
  · rename_i htop
    split
    · rename_i hzero
      exact iff_of_false Bool.false_ne_true fun h => h.2 hzero
    · rename_i hnonzero
      exact iff_of_true rfl ⟨htop, hnonzero⟩
  · rename_i htop
    have hfields : ¬(@unpackExponent .binary32 b = -1#8 ∧ @unpackMantissa .binary32 b ≠ 0#23) :=
      fun h => htop h.1
    split
    · split <;> exact iff_of_false Bool.false_ne_true hfields
    · exact iff_of_false Bool.false_ne_true hfields

/-- Putting a number together makes a NaN of a NaN only. -/
theorem isNaN_unpack_pack (u : Float.Model.UnpackedFloat) (h : u.isNaN = false) :
    (unpack .binary32 (pack .binary32 u)).isNaN = false := by
  rw [← Bool.not_eq_true, isNaN_unpack_iff]
  rintro ⟨hexponent, hmantissa⟩
  cases u with
  | notANumber => cases h
  | infinity s =>
    rw [pack, packedInfinity, unpackMantissa_packComponents] at hmantissa
    exact hmantissa rfl
  | zero s =>
    rw [pack, packedZero, unpackMantissa_packComponents] at hmantissa
    exact hmantissa rfl
  | finite s m e hm =>
    rw [pack] at hexponent hmantissa
    dsimp only at hexponent hmantissa
    split at hexponent
    · rename_i hlarge
      rw [if_pos hlarge, packedInfinity, unpackMantissa_packComponents] at hmantissa
      exact hmantissa rfl
    rename_i hsmall
    split at hexponent
    · rw [unpackExponent_packComponents] at hexponent
      have hfield := congrArg BitVec.toNat hexponent
      rw [BitVec.toNat_ofNat, Nat.mod_eq_of_lt (by omega)] at hfield
      have hall : (-1#8).toNat = 255 := rfl
      have htop : 2 ^ Format.binary32.exponentBits = 256 := rfl
      omega
    · rw [unpackExponent_packComponents] at hexponent
      exact absurd hexponent (by decide)

/-! ## Rounding -/

theorem targetExponent_eq (t : Int) : Format.binary32.targetExponent t = max (t - 24) (-149) := by
  unfold Format.targetExponent
  rfl

theorem Fits.log2_lt (h : Fits m e) : m.log2 < 24 := (Nat.log2_lt (Nat.ne_of_gt h.positive)).2 h.short

theorem Fits.targetExponent_eq (h : Fits m e) : Format.binary32.targetExponent (totalExponent m e) = e := by
  have hlog := h.log2_lt
  have hleast := h.least
  rw [Binary32.targetExponent_eq, totalExponent]
  rcases h.normal with hnormal | hsubnormal
  · have : 23 ≤ m.log2 := (Nat.le_log2 (Nat.ne_of_gt h.positive)).2 hnormal
    omega
  · omega

theorem log2_mul_two_pow (hm : 0 < m) (k : Nat) : (m * 2 ^ k).log2 = m.log2 + k := by
  have hlower := Nat.log2_self_le (Nat.ne_of_gt hm)
  have hupper : m < 2 ^ (m.log2 + 1) := Nat.lt_log2_self
  rw [Nat.log2_eq_iff (Nat.ne_of_gt (Nat.mul_pos hm (Nat.two_pow_pos k)))]
  constructor
  · rw [Nat.pow_add]
    exact Nat.mul_le_mul_right _ hlower
  · rw [Nat.add_right_comm, Nat.pow_add]
    exact Nat.mul_lt_mul_of_pos_right hupper (Nat.two_pow_pos k)

/-- Zeros shifted out of a mantissa leave nothing to round. -/
theorem shiftRight_mul (m k : Nat) :
    ExtendedMantissa.ofMantissaAndAccuracy (m * 2 ^ k) .exact >>> k = ⟨m, false, false⟩ := by
  induction k generalizing m with
  | zero =>
    rw [Nat.pow_zero, Nat.mul_one]
    rfl
  | succ k ih =>
    have hstep : ∀ em : ExtendedMantissa, em >>> (k + 1) = (em >>> k).shiftRightOne := fun _ => rfl
    rw [Nat.pow_succ, Nat.mul_comm (2 ^ k), ← Nat.mul_assoc, hstep, ih, ExtendedMantissa.shiftRightOne,
      Nat.mul_div_cancel _ (by decide), Nat.mul_mod_left]
    rfl

theorem Fits.shiftToTargetExponent_mul (h : Fits m e) (k : Nat) :
    shiftToTargetExponent .binary32 (m * 2 ^ k) (e - k) .exact = (⟨m, false, false⟩, e) := by
  have htotal : totalExponent (m * 2 ^ k) (e - k) = totalExponent m e := by
    rw [totalExponent, totalExponent, log2_mul_two_pow h.positive]
    omega
  have hshift : (e - (e - (k : Int))).toNat = k := by omega
  rw [shiftToTargetExponent, htotal, h.targetExponent_eq, shiftToExponent, hshift, shiftRight_mul, Int.sub_add_cancel]

/-- **A number of the format is not rounded**, also if zeros were put behind its mantissa. -/
theorem Fits.roundWithAccuracy_mul (h : Fits m e) (s : Sign) (k : Nat) :
    roundWithAccuracy .binary32 s (m * 2 ^ k) (e - k) .exact = .finite s m e h.positive := by
  have hagain := h.shiftToTargetExponent_mul 0
  have hrounded : ExtendedMantissa.roundedMantissa ⟨m, false, false⟩ = m := rfl
  rw [Nat.pow_zero, Nat.mul_one, Int.natCast_zero, Int.sub_zero] at hagain
  rw [roundWithAccuracy, h.shiftToTargetExponent_mul]
  dsimp only
  rw [hrounded, hagain]
  exact dif_neg (Nat.ne_of_gt h.positive)

theorem isNaN_roundWithAccuracy (s : Sign) (m : Nat) (e : Int) (accuracy : Accuracy) :
    (roundWithAccuracy .binary32 s m e accuracy).isNaN = false := by
  rw [roundWithAccuracy]
  dsimp only
  split <;> rfl

/-! ## Quotients and products -/

/-- The number one. -/
def one : Float.Model.UnpackedFloat := .finite .positive (2 ^ 23) (-23) (by decide)

/-- The quotient by one is exact, some zeros behind the mantissa. -/
theorem Fits.divCore_one (h : Fits m e) :
    ∃ k : Nat, divCore .binary32 m e (2 ^ 23) (-23) = (m * 2 ^ k, e - k, .exact) := by
  have hlog := h.log2_lt
  have hleast := h.least
  have hone : totalExponent (2 ^ 23) (-23) = 1 := rfl
  obtain ⟨k, hk⟩ : ∃ k : Nat, max ((m.log2 : Int) + e - 24) (-149) = e - k :=
    ⟨(e - max ((m.log2 : Int) + e - 24) (-149)).toNat, by omega⟩
  have htarget : min (e - -23) (Format.binary32.targetExponent (totalExponent m e - totalExponent (2 ^ 23) (-23))) =
      e - k := by
    rw [Binary32.targetExponent_eq, hone, totalExponent]
    omega
  have hshift : (e - -23 - (e - (k : Int))).toNat = k + 23 := by omega
  have hexact : m <<< (k + 23) = m * 2 ^ k * 2 ^ 23 := by rw [Nat.shiftLeft_eq, Nat.pow_add, Nat.mul_assoc]
  refine ⟨k, ?_⟩
  rw [divCore, htarget, hshift, hexact, Nat.mul_div_cancel _ (by decide), Nat.mul_mod_left]
  rfl

theorem div_one (b : BitVec 32) : Float.Model.UnpackedFloat.div .binary32 (unpack .binary32 b) one =
    unpack .binary32 b := by
  have hsign : ∀ s : Sign, s / Sign.positive = s := fun s => by cases s <;> rfl
  rw [one]
  cases hu : unpack .binary32 b with
  | notANumber => rfl
  | infinity s => rw [Float.Model.UnpackedFloat.div, hsign]
  | zero s => rw [Float.Model.UnpackedFloat.div, hsign]
  | finite s m e hm =>
    have hfits := fits_of_unpack hu
    obtain ⟨k, hk⟩ := hfits.divCore_one
    rw [Float.Model.UnpackedFloat.div, hk, hsign]
    exact hfits.roundWithAccuracy_mul s k

theorem isNaN_div_finite {u : Float.Model.UnpackedFloat} (h : u.isNaN = false) (hm : 0 < m) :
    (Float.Model.UnpackedFloat.div .binary32 u (.finite s m e hm)).isNaN = false := by
  cases u with
  | notANumber => cases h
  | infinity s => rfl
  | zero s => rfl
  | finite s' m' e' hm' => exact isNaN_roundWithAccuracy _ _ _ _

theorem isNaN_mul_finite {u : Float.Model.UnpackedFloat} (h : u.isNaN = false) (hm : 0 < m) :
    (Float.Model.UnpackedFloat.mul .binary32 u (.finite s m e hm)).isNaN = false := by
  cases u with
  | notANumber => cases h
  | infinity s => rfl
  | zero s => rfl
  | finite s' m' e' hm' => exact isNaN_roundWithAccuracy _ _ _ _

end Binary32

namespace Single

open Float.Model (Format)
open Float.Model.UnpackedFloat

variable {x y : Single}

theorem toNat_unpackExponent (x : Single) :
    (@unpackExponent .binary32 x.bits.toBitVec).toNat = x.exponentField := by
  rw [unpackExponent_def, BitVec.extractLsb'_toNat, Nat.shiftRight_eq_div_pow, exponentField, magnitude]
  change x.bits.toNat / 2 ^ 23 % 2 ^ 8 = _
  omega

theorem toNat_unpackMantissa (x : Single) :
    (@unpackMantissa .binary32 x.bits.toBitVec).toNat = x.fractionField := by
  rw [unpackMantissa_def, BitVec.extractLsb'_toNat, Nat.shiftRight_zero, fractionField, magnitude]
  change x.bits.toNat % 2 ^ 23 = _
  omega

theorem isNaN_unpack (x : Single) : (unpack .binary32 x.bits.toBitVec).isNaN = x.isNaN := by
  have hexponent : @unpackExponent .binary32 x.bits.toBitVec = -1#8 ↔ x.exponentField = 255 := by
    rw [← toNat_unpackExponent]
    exact BitVec.toNat_inj.symm
  have hmantissa : @unpackMantissa .binary32 x.bits.toBitVec = 0#23 ↔ x.fractionField = 0 := by
    rw [← toNat_unpackMantissa]
    exact BitVec.toNat_inj.symm
  have hlt := x.magnitude_lt
  rw [Bool.eq_iff_iff, Binary32.isNaN_unpack_iff, hexponent, Ne, hmantissa, isNaN, decide_eq_true_eq, exponentField,
    fractionField]
  omega

/-- The machine holds a number that is not NaN with its own bits. -/
theorem toBitVec_value (h : x.isNaN = false) : x.value.toModel.toBits.toBitVec = x.bits.toBitVec := by
  refine pack_unpack_of_valid ⟨fun hexponent hmantissa => ?_⟩
  rw [← isNaN_unpack, ← Bool.not_eq_true, Binary32.isNaN_unpack_iff] at h
  exact absurd ⟨hexponent, hmantissa⟩ h

theorem isNaN_ofValue (v : Float32) : (ofValue v).isNaN = v.isNaN := (isNaN_unpack (ofValue v)).symm

/-- **Dividing by one changes nothing.** -/
theorem div_one (h : x.isNaN = false) : x / one = x := by
  have hone : (one.value).toModel.toBits.toBitVec = one.bits.toBitVec := toBitVec_value (by decide)
  have hbits : (x.value / one.value).toModel.toBits.toBitVec = x.bits.toBitVec := by
    calc (x.value / one.value).toModel.toBits.toBitVec
        = pack .binary32 (Float.Model.UnpackedFloat.div .binary32 (unpack .binary32 x.value.toModel.toBits.toBitVec)
            (unpack .binary32 one.value.toModel.toBits.toBitVec)) := rfl
      _ = pack .binary32 (unpack .binary32 x.value.toModel.toBits.toBitVec) := by
          rw [hone]
          exact congrArg _ (Binary32.div_one _)
      _ = x.bits.toBitVec := by
          rw [toBitVec_value h]
          exact toBitVec_value h
  have hvalue : ofValue (x.value / one.value) = x := congrArg Single.mk (UInt32.toBitVec_inj.1 hbits)
  change settle x one (x.value / one.value) = x
  rw [settle, if_neg (by rw [← isNaN_ofValue, hvalue, h]; decide), hvalue]

/-- What the machine computes without a NaN is none. -/
theorem isNaN_settle {v : Float32} (hv : v.isNaN = false) : (settle x y v).isNaN = false := by
  rw [settle, if_neg (by rw [hv]; decide), isNaN_ofValue, hv]

/-- A finite number that is not zero is one to the machine. -/
theorem exists_unpack_value (hfinite : y.isFinite = true) (hpos : zero.lt y = true) :
    ∃ s m e hm, unpack .binary32 y.value.toModel.toBits.toBitVec = .finite s m e hm := by
  rw [isFinite, decide_eq_true_eq] at hfinite
  have hplace : 0 < y.place := by
    rw [lt, Bool.and_eq_true, Bool.and_eq_true, decide_eq_true_eq] at hpos
    exact hpos.2
  have hmagnitude : 0 < y.magnitude := by
    rw [place] at hplace
    split at hplace <;> omega
  have hnan : y.isNaN = false := decide_eq_false (by omega)
  have hexponent : @unpackExponent .binary32 y.bits.toBitVec ≠ -1#8 := by
    intro h
    have := toNat_unpackExponent y
    rw [h, exponentField] at this
    change 255 = _ at this
    omega
  rw [toBitVec_value hnan]
  unfold unpack
  dsimp only
  rw [if_neg hexponent]
  split
  · rename_i hzero
    have hfraction : @unpackMantissa .binary32 y.bits.toBitVec ≠ 0#23 := by
      intro h
      have hexponent' := toNat_unpackExponent y
      have hfraction' := toNat_unpackMantissa y
      rw [hzero, exponentField] at hexponent'
      rw [h, fractionField] at hfraction'
      change 0 = _ at hexponent'
      change 0 = _ at hfraction'
      omega
    rw [dif_neg hfraction]
    exact ⟨_, _, _, Nat.pos_of_ne_zero fun h => hfraction (BitVec.eq_of_toNat_eq h), rfl⟩
  · have hmantissa := Binary32.toNat_one_append (@unpackMantissa .binary32 y.bits.toBitVec)
    exact ⟨_, _, _, Nat.lt_of_lt_of_le (by omega) (Nat.le_of_eq hmantissa.symm), rfl⟩

theorem isNaN_unpack_value (h : x.isNaN = false) :
    (unpack .binary32 x.value.toModel.toBits.toBitVec).isNaN = false := by
  rw [toBitVec_value h, isNaN_unpack, h]

/-- **A finite divisor that is not zero makes no NaN.** -/
theorem isNaN_div (h : x.isNaN = false) (hfinite : y.isFinite = true) (hpos : zero.lt y = true) :
    (x / y).isNaN = false := by
  obtain ⟨s, m, e, hm, hy⟩ := exists_unpack_value hfinite hpos
  have hquotient := Binary32.isNaN_div_finite (isNaN_unpack_value h) hm (s := s) (e := e)
  rw [← hy] at hquotient
  exact isNaN_settle (Binary32.isNaN_unpack_pack _ hquotient)

/-- **A finite factor that is not zero makes no NaN.** -/
theorem isNaN_mul (h : x.isNaN = false) (hfinite : y.isFinite = true) (hpos : zero.lt y = true) :
    (x * y).isNaN = false := by
  obtain ⟨s, m, e, hm, hy⟩ := exists_unpack_value hfinite hpos
  have hproduct := Binary32.isNaN_mul_finite (isNaN_unpack_value h) hm (s := s) (e := e)
  rw [← hy] at hproduct
  exact isNaN_settle (Binary32.isNaN_unpack_pack _ hproduct)

end Single
end CausalLM
