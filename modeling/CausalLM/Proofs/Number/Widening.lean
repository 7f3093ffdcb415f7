import CausalLM.Number.Double
import CausalLM.Number.Half
import Mathlib.Tactic.SplitIfs
/-!
# Proofs.Number.Widening — widening a number does not change it

A pattern is a sign, an exponent field and a fraction field.  What it stands for is read off the fields on one scale
for all formats, the multiples of the smallest positive binary64 number.  Widening moves the exponent to the wider bias
and the fraction up, and makes a subnormal number normal, which changes nothing (`Number.ofFields_widenFields`); so it
is for `Single.widen`, `Half.toSingle` and `Half.ofBrain`.
-/
namespace CausalLM

/-- **What a pattern stands for.**  The size of a finite number counts units of `2 ^ -1074`. -/
inductive Number where
  | nan
  | infinite (negative : Bool)
  | finite (negative : Bool) (size : Nat)
  deriving DecidableEq, Repr

/-- The number with these fields in a format of `width` bits of fraction.  What has the exponent `top` is not finite,
and a subnormal number counts `unit`. -/
def Number.ofFields (width top unit : Nat) (negative : Bool) (exponent fraction : Nat) : Number :=
  if exponent = top then
    if fraction = 0 then infinite negative else nan
  else if exponent = 0 then finite negative (fraction * unit)
  else finite negative ((2 ^ width + fraction) * 2 ^ (exponent - 1) * unit)

/-- The smallest positive binary32 number is `2 ^ -149`. -/
def Single.unit : Nat := 2 ^ 925

def Single.number (x : Single) : Number :=
  .ofFields 23 255 unit x.isNegative x.exponentField x.fractionField

def Double.number (x : Double) : Number :=
  .ofFields 52 2047 1 x.isNegative (x.magnitude / 2 ^ 52) (x.magnitude % 2 ^ 52)

/-- The number of a binary16 pattern; the smallest positive one is `2 ^ -24`. -/
def Half.number (h : UInt16) : Number :=
  .ofFields 10 31 (2 ^ 1050) (0x8000 ≤ h.toNat) (h.toNat % 0x8000 / 2 ^ 10) (h.toNat % 2 ^ 10)

/-- The number of a bfloat16 pattern; the smallest positive one is `2 ^ -133`. -/
def Half.brainNumber (h : UInt16) : Number :=
  .ofFields 7 255 (2 ^ 941) (0x8000 ≤ h.toNat) (h.toNat % 0x8000 / 2 ^ 7) (h.toNat % 2 ^ 7)

/-! ## Patterns -/

/-- The fields a pattern is made of are read back. -/
theorem Double.number_pattern (negative : Bool) {e f : Nat} (he : e ≤ 2047) (hf : f < 2 ^ 52) :
    Double.number ⟨UInt64.ofNat ((if negative then 2 ^ 63 else 0) + (e * 2 ^ 52 + f))⟩ =
      .ofFields 52 2047 1 negative e f := by
  have hbits : (UInt64.ofNat ((if negative then 2 ^ 63 else 0) + (e * 2 ^ 52 + f))).toNat =
      (if negative then 2 ^ 63 else 0) + (e * 2 ^ 52 + f) := by
    rw [UInt64.toNat_ofNat']
    split <;> omega
  have hnegative : Double.isNegative ⟨UInt64.ofNat ((if negative then 2 ^ 63 else 0) + (e * 2 ^ 52 + f))⟩ =
      negative := by
    rw [isNegative, hbits]
    cases negative with
    | false => exact decide_eq_false (by simp; omega)
    | true => exact decide_eq_true (Nat.le_add_right _ _)
  have hmagnitude : Double.magnitude ⟨UInt64.ofNat ((if negative then 2 ^ 63 else 0) + (e * 2 ^ 52 + f))⟩ =
      e * 2 ^ 52 + f := by
    rw [magnitude, hbits]
    split <;> omega
  rw [number, hnegative, hmagnitude, show (e * 2 ^ 52 + f) / 2 ^ 52 = e by omega,
    show (e * 2 ^ 52 + f) % 2 ^ 52 = f by omega]

theorem Single.number_pattern (negative : Bool) {e f : Nat} (he : e ≤ 255) (hf : f < 2 ^ 23) :
    Single.number ⟨UInt32.ofNat ((if negative then 2 ^ 31 else 0) + (e * 2 ^ 23 + f))⟩ =
      .ofFields 23 255 unit negative e f := by
  have hbits : (UInt32.ofNat ((if negative then 2 ^ 31 else 0) + (e * 2 ^ 23 + f))).toNat =
      (if negative then 2 ^ 31 else 0) + (e * 2 ^ 23 + f) := by
    rw [UInt32.toNat_ofNat']
    split <;> omega
  have hnegative : Single.isNegative ⟨UInt32.ofNat ((if negative then 2 ^ 31 else 0) + (e * 2 ^ 23 + f))⟩ =
      negative := by
    rw [isNegative, hbits]
    cases negative with
    | false => exact decide_eq_false (by simp; omega)
    | true => exact decide_eq_true (Nat.le_add_right _ _)
  have hmagnitude : Single.magnitude ⟨UInt32.ofNat ((if negative then 2 ^ 31 else 0) + (e * 2 ^ 23 + f))⟩ =
      e * 2 ^ 23 + f := by
    rw [magnitude, hbits]
    split <;> omega
  rw [number, exponentField, fractionField, hnegative, hmagnitude, show (e * 2 ^ 23 + f) / 2 ^ 23 = e by omega,
    show (e * 2 ^ 23 + f) % 2 ^ 23 = f by omega]

/-! ## Fields -/

/-- **The fields of a number in a wider format**, whose bias is larger by `bias`.  A subnormal number becomes normal; a
NaN keeps its payload and becomes quiet. -/
def Number.widenFields (width top width' top' bias e f : Nat) : Nat × Nat :=
  if e = top then
    if f = 0 then (top', 0) else (top', f * 2 ^ (width' - width) ||| 2 ^ (width' - 1))
  else if e = 0 then
    if f = 0 then (0, 0) else (f.log2 + (bias + 1 - width), (f - 2 ^ f.log2) * 2 ^ (width' - f.log2))
  else (e + bias, f * 2 ^ (width' - width))

namespace Number

variable {width top width' top' bias e f k : Nat}

/-- The payload of a NaN with the quiet bit is a fraction, and not zero. -/
theorem quiet_payload (hwidth : width < width') (hf : f < 2 ^ width) :
    f * 2 ^ (width' - width) ||| 2 ^ (width' - 1) < 2 ^ width' ∧
      f * 2 ^ (width' - width) ||| 2 ^ (width' - 1) ≠ 0 := by
  have hmoved : f * 2 ^ (width' - width) < 2 ^ width' := by
    calc f * 2 ^ (width' - width) < 2 ^ width * 2 ^ (width' - width) :=
          Nat.mul_lt_mul_of_pos_right hf (Nat.two_pow_pos _)
      _ = 2 ^ width' := by rw [← Nat.pow_add, Nat.add_sub_cancel' (Nat.le_of_lt hwidth)]
  refine ⟨Nat.or_lt_two_pow hmoved (Nat.pow_lt_pow_right (by decide) (by omega)), fun h => ?_⟩
  have hquiet : 2 ^ (width' - 1) ≤ f * 2 ^ (width' - width) ||| 2 ^ (width' - 1) := Nat.right_le_or
  have hpos := Nat.two_pow_pos (width' - 1)
  omega

/-- A subnormal fraction, moved up until it is normal, with the bits below its first. -/
theorem normalized (hpos : f ≠ 0) (hf : f < 2 ^ width) (hwidth : width < width') (hk : width' ≤ k) :
    (f - 2 ^ f.log2) * 2 ^ (width' - f.log2) < 2 ^ width' ∧
      (2 ^ width' + (f - 2 ^ f.log2) * 2 ^ (width' - f.log2)) * 2 ^ (f.log2 + (k - width')) = f * 2 ^ k := by
  have hlog : f.log2 < width := (Nat.log2_lt hpos).2 hf
  have hexponent : width' - f.log2 + (f.log2 + (k - width')) = k := by omega
  have hle : 2 ^ f.log2 ≤ f := Nat.log2_self_le hpos
  have hlt : f < 2 ^ f.log2 * 2 := Nat.lt_log2_self
  have hone : 2 ^ width' = 2 ^ f.log2 * 2 ^ (width' - f.log2) := by
    rw [← Nat.pow_add, show f.log2 + (width' - f.log2) = width' by omega]
  have hsum : 2 ^ width' + (f - 2 ^ f.log2) * 2 ^ (width' - f.log2) = f * 2 ^ (width' - f.log2) := by
    rw [hone, ← Nat.add_mul, Nat.add_sub_cancel' hle]
  constructor
  · rw [hone]
    exact Nat.mul_lt_mul_of_pos_right (by omega) (Nat.two_pow_pos _)
  · rw [hsum, Nat.mul_assoc, ← Nat.pow_add, hexponent]

/-- A normal number keeps its fraction and moves its exponent to the wider bias. -/
theorem widened (he : e ≠ 0) (hwidth : width ≤ width') :
    (2 ^ width' + f * 2 ^ (width' - width)) * 2 ^ (e + bias - 1) =
      (2 ^ width + f) * 2 ^ (e - 1) * 2 ^ (bias + (width' - width)) := by
  have hone : 2 ^ width' = 2 ^ width * 2 ^ (width' - width) := by
    rw [← Nat.pow_add, Nat.add_sub_cancel' hwidth]
  have hexponent : width' - width + (e + bias - 1) = e - 1 + (bias + (width' - width)) := by omega
  rw [hone, ← Nat.add_mul, Nat.mul_assoc, Nat.mul_assoc, ← Nat.pow_add, ← Nat.pow_add, hexponent]

/-- The wider fields are in range. -/
theorem widenFields_le (hwidth : width < width') (hbias : width ≤ bias) (htop : top + bias < top') (he : e ≤ top)
    (hf : f < 2 ^ width) : (widenFields width top width' top' bias e f).1 ≤ top' ∧
      (widenFields width top width' top' bias e f).2 < 2 ^ width' := by
  have hpos := Nat.two_pow_pos width'
  unfold widenFields
  by_cases hinf : e = top
  · rw [if_pos hinf]
    by_cases hzero : f = 0
    · rw [if_pos hzero]
      exact ⟨Nat.le_refl _, hpos⟩
    · rw [if_neg hzero]
      exact ⟨Nat.le_refl _, (quiet_payload hwidth hf).1⟩
  rw [if_neg hinf]
  by_cases hsub : e = 0
  · rw [if_pos hsub]
    by_cases hzero : f = 0
    · rw [if_pos hzero]
      exact ⟨Nat.zero_le _, hpos⟩
    · have hlog : f.log2 < width := (Nat.log2_lt hzero).2 hf
      rw [if_neg hzero]
      exact ⟨by dsimp only; omega, (normalized hzero hf hwidth (Nat.le_refl _)).1⟩
  · rw [if_neg hsub]
    refine ⟨by dsimp only; omega, ?_⟩
    calc f * 2 ^ (width' - width) < 2 ^ width * 2 ^ (width' - width) :=
          Nat.mul_lt_mul_of_pos_right hf (Nat.two_pow_pos _)
      _ = 2 ^ width' := by rw [← Nat.pow_add, Nat.add_sub_cancel' (Nat.le_of_lt hwidth)]

/-- **The wider fields stand for the same number.** -/
theorem ofFields_widenFields {k' : Nat} (negative : Bool) (hk : k = bias + (width' - width) + k')
    (hwidth : width < width') (hbias : width ≤ bias) (htop : top + bias < top') (he : e ≤ top) (hf : f < 2 ^ width) :
    ofFields width' top' (2 ^ k') negative (widenFields width top width' top' bias e f).1
      (widenFields width top width' top' bias e f).2 =
      ofFields width top (2 ^ k) negative e f := by
  rw [hk, Nat.pow_add _ _ k']
  unfold widenFields
  by_cases hinf : e = top
  · rw [if_pos hinf, hinf]
    by_cases hzero : f = 0
    · rw [if_pos hzero, hzero]
      simp only [ofFields, if_true]
    · obtain ⟨-, hne⟩ := quiet_payload hwidth hf
      rw [if_neg hzero]
      simp only [ofFields, if_neg hne, if_neg hzero, if_true]
  rw [if_neg hinf]
  by_cases hsub : e = 0
  · rw [if_pos hsub]
    subst hsub
    by_cases hzero : f = 0
    · rw [if_pos hzero, hzero]
      unfold ofFields
      rw [if_neg (by dsimp only; omega), if_pos rfl, if_neg hinf, if_pos rfl, Nat.zero_mul, Nat.zero_mul]
    · have hlog : f.log2 < width := (Nat.log2_lt hzero).2 hf
      obtain ⟨-, hsize⟩ := normalized (k := bias + (width' - width)) hzero hf hwidth (by omega)
      have hexponent : f.log2 + (bias + 1 - width) - 1 = f.log2 + (bias + (width' - width) - width') := by omega
      rw [if_neg hzero]
      unfold ofFields
      rw [if_neg (by dsimp only; omega), if_neg (by dsimp only; omega), if_neg hinf, if_pos rfl, ← Nat.mul_assoc,
        ← hsize, hexponent]
  · rw [if_neg hsub]
    unfold ofFields
    rw [if_neg (by dsimp only; omega), if_neg (by dsimp only; omega), if_neg hinf, if_neg hsub,
      widened hsub (Nat.le_of_lt hwidth), Nat.mul_assoc]

end Number

namespace Single

theorem exponentField_le (x : Single) : x.exponentField ≤ 255 := by
  have := x.magnitude_lt
  unfold exponentField
  omega

theorem fractionField_lt (x : Single) : x.fractionField < 2 ^ 23 := Nat.mod_lt _ (by decide)

theorem widen_eq (x : Single) : x.widen = ⟨UInt64.ofNat ((if x.isNegative then 2 ^ 63 else 0) +
    ((Number.widenFields 23 255 52 2047 896 x.exponentField x.fractionField).1 * 2 ^ 52 +
      (Number.widenFields 23 255 52 2047 896 x.exponentField x.fractionField).2))⟩ := by
  unfold widen Number.widenFields
  dsimp only
  split_ifs <;> rfl

/-- **Widening does not change the number.** -/
theorem number_widen (x : Single) : x.widen.number = x.number := by
  have he := x.exponentField_le
  have hf := x.fractionField_lt
  obtain ⟨he', hf'⟩ : (Number.widenFields 23 255 52 2047 896 x.exponentField x.fractionField).1 ≤ 2047 ∧
      (Number.widenFields 23 255 52 2047 896 x.exponentField x.fractionField).2 < 2 ^ 52 :=
    Number.widenFields_le (by decide) (by decide) (by decide) he hf
  have hsame : Number.ofFields 52 2047 (2 ^ 0) x.isNegative
      (Number.widenFields 23 255 52 2047 896 x.exponentField x.fractionField).1
      (Number.widenFields 23 255 52 2047 896 x.exponentField x.fractionField).2 =
      Number.ofFields 23 255 (2 ^ 925) x.isNegative x.exponentField x.fractionField :=
    Number.ofFields_widenFields _ rfl (by decide) (by decide) (by decide) he hf
  rw [Nat.pow_zero] at hsame
  rw [widen_eq, Double.number_pattern _ he' hf', hsame, number, unit]

end Single

namespace Half

theorem toSingle_eq (h : UInt16) : toSingle h = ⟨UInt32.ofNat ((if 0x8000 ≤ h.toNat then 2 ^ 31 else 0) +
    ((Number.widenFields 10 31 23 255 112 (h.toNat % 0x8000 / 2 ^ 10) (h.toNat % 2 ^ 10)).1 * 2 ^ 23 +
      (Number.widenFields 10 31 23 255 112 (h.toNat % 0x8000 / 2 ^ 10) (h.toNat % 2 ^ 10)).2))⟩ := by
  unfold toSingle Number.widenFields
  dsimp only
  split_ifs <;> rfl

/-- **Reading binary16 does not change the number.** -/
theorem number_toSingle (h : UInt16) : (toSingle h).number = number h := by
  have he : h.toNat % 0x8000 / 2 ^ 10 ≤ 31 := by omega
  have hf : h.toNat % 2 ^ 10 < 2 ^ 10 := Nat.mod_lt _ (by decide)
  obtain ⟨he', hf'⟩ : (Number.widenFields 10 31 23 255 112 (h.toNat % 0x8000 / 2 ^ 10) (h.toNat % 2 ^ 10)).1 ≤ 255 ∧
      (Number.widenFields 10 31 23 255 112 (h.toNat % 0x8000 / 2 ^ 10) (h.toNat % 2 ^ 10)).2 < 2 ^ 23 :=
    Number.widenFields_le (by decide) (by decide) (by decide) he hf
  have hsame : Number.ofFields 23 255 (2 ^ 925) (decide (0x8000 ≤ h.toNat))
      (Number.widenFields 10 31 23 255 112 (h.toNat % 0x8000 / 2 ^ 10) (h.toNat % 2 ^ 10)).1
      (Number.widenFields 10 31 23 255 112 (h.toNat % 0x8000 / 2 ^ 10) (h.toNat % 2 ^ 10)).2 =
      Number.ofFields 10 31 (2 ^ 1050) (decide (0x8000 ≤ h.toNat)) (h.toNat % 0x8000 / 2 ^ 10) (h.toNat % 2 ^ 10) :=
    Number.ofFields_widenFields _ rfl (by decide) (by decide) (by decide) he hf
  have hpattern := Single.number_pattern (decide (0x8000 ≤ h.toNat)) he' hf'
  simp only [decide_eq_true_eq] at hpattern
  rw [toSingle_eq, hpattern, Single.unit, hsame, number]

/-- The upper half of a binary32 pattern, with the quiet bit of a NaN. -/
theorem ofBrain_eq (h : UInt16) : ofBrain h = ⟨UInt32.ofNat ((if 0x8000 ≤ h.toNat then 2 ^ 31 else 0) +
    (h.toNat % 0x8000 / 2 ^ 7 * 2 ^ 23 +
      (if 0x7f80 < h.toNat % 0x8000 then h.toNat % 2 ^ 7 ||| 0x40 else h.toNat % 2 ^ 7) * 2 ^ 16))⟩ := by
  have hlt : h.toNat < 2 ^ 16 := h.toNat_lt
  have hquiet : h.toNat ||| 0x40 = h.toNat / 2 ^ 7 * 2 ^ 7 + (h.toNat % 2 ^ 7 ||| 0x40) := by
    have hlow : h.toNat % 2 ^ 7 ||| 0x40 < 2 ^ 7 := Nat.or_lt_two_pow (Nat.mod_lt _ (by decide)) (by decide)
    have hparts : h.toNat = (h.toNat / 2 ^ 7) <<< 7 ||| h.toNat % 2 ^ 7 := by
      rw [← Nat.shiftLeft_add_eq_or_of_lt (Nat.mod_lt _ (by decide)), Nat.shiftLeft_eq]
      omega
    conv => lhs; rw [hparts]
    rw [Nat.or_assoc, ← Nat.shiftLeft_add_eq_or_of_lt hlow, Nat.shiftLeft_eq]
  unfold ofBrain
  dsimp only
  rw [hquiet]
  congr 2
  split_ifs <;> omega

/-- **Reading bfloat16 does not change the number.** -/
theorem number_ofBrain (h : UInt16) : (ofBrain h).number = brainNumber h := by
  have hpattern := fun {f} => Single.number_pattern (decide (0x8000 ≤ h.toNat)) (f := f)
    (show h.toNat % 0x8000 / 2 ^ 7 ≤ 255 by omega)
  simp only [decide_eq_true_eq] at hpattern
  have hlow : h.toNat % 2 ^ 7 ||| 0x40 < 2 ^ 7 := Nat.or_lt_two_pow (Nat.mod_lt _ (by decide)) (by decide)
  have hquiet : 0x40 ≤ h.toNat % 2 ^ 7 ||| 0x40 := Nat.right_le_or
  rw [ofBrain_eq, brainNumber, show 941 = 16 + 925 from rfl, Nat.pow_add 2 16 925, ← Single.unit]
  by_cases hnan : 0x7f80 < h.toNat % 0x8000
  · have htop : h.toNat % 0x8000 / 2 ^ 7 = 255 := by omega
    have hfraction : h.toNat % 2 ^ 7 ≠ 0 := by omega
    rw [if_pos hnan, hpattern (by omega)]
    unfold Number.ofFields
    rw [if_pos htop, if_pos htop, if_neg (by omega), if_neg hfraction]
  rw [if_neg hnan, hpattern (by omega)]
  unfold Number.ofFields
  by_cases htop : h.toNat % 0x8000 / 2 ^ 7 = 255
  · have hfraction : h.toNat % 2 ^ 7 = 0 := by omega
    rw [if_pos htop, if_pos htop, hfraction, if_pos (Nat.zero_mul _)]
  rw [if_neg htop, if_neg htop]
  by_cases hsub : h.toNat % 0x8000 / 2 ^ 7 = 0
  · rw [if_pos hsub, if_pos hsub, Nat.mul_assoc]
  · have hfraction : 2 ^ 23 + h.toNat % 2 ^ 7 * 2 ^ 16 = (2 ^ 7 + h.toNat % 2 ^ 7) * 2 ^ 16 := by omega
    rw [if_neg hsub, if_neg hsub, hfraction, ← Nat.mul_assoc, Nat.mul_right_comm _ (2 ^ 16)]

end Half
end CausalLM
