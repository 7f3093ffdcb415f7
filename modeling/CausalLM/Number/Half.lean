import CausalLM.Number.Single
/-!
# Number.Half — the two 16-bit formats of stored weights

`binary16` has 5 exponent and 10 fraction bits, `bfloat16` is the upper half of a binary32 number.  Reading either is
exact; writing binary16 rounds to nearest, a tie to the even neighbour.
-/
namespace CausalLM.Half

/-- The number a binary16 pattern stands for; a NaN becomes quiet. -/
def toSingle (h : UInt16) : Single :=
  let n := h.toNat
  let sign := if 0x8000 ≤ n then 2 ^ 31 else 0
  let e := n % 0x8000 / 2 ^ 10
  let f := n % 2 ^ 10
  let pattern :=
    if e = 31 then
      if f = 0 then 255 * 2 ^ 23 else 255 * 2 ^ 23 + (f * 2 ^ 13 ||| 2 ^ 22)
    else if e = 0 then
      if f = 0 then 0 else (f.log2 + 103) * 2 ^ 23 + (f - 2 ^ f.log2) * 2 ^ (23 - f.log2)
    else (e + 112) * 2 ^ 23 + f * 2 ^ 13
  ⟨UInt32.ofNat (sign + pattern)⟩

/-- The number a bfloat16 pattern stands for; a NaN becomes quiet. -/
def ofBrain (h : UInt16) : Single :=
  let n := h.toNat
  ⟨UInt32.ofNat ((if 0x7f80 < n % 0x8000 then n ||| 0x40 else n) * 2 ^ 16)⟩

/-- The whole number nearest to `m / 2 ^ s`, a tie to the even one. -/
def roundShift (m s : Nat) : Nat :=
  let q := m / 2 ^ s
  let r := m % 2 ^ s
  if 2 ^ s < 2 * r ∨ (2 * r = 2 ^ s ∧ q % 2 = 1) then q + 1 else q

/-- The nearest binary16 pattern.  Too large becomes infinite, too small a zero of the same sign, and a NaN keeps the
top of its payload and becomes quiet. -/
def ofSingle (x : Single) : UInt16 :=
  let sign := if x.isNegative then 2 ^ 15 else 0
  let e := x.exponentField
  let f := x.fractionField
  let pattern :=
    if e = 255 then
      if f = 0 then 31 * 2 ^ 10 else 31 * 2 ^ 10 + (f / 2 ^ 13 ||| 2 ^ 9)
    else if 143 ≤ e then 31 * 2 ^ 10
    else if 113 ≤ e then (e - 112) * 2 ^ 10 + roundShift f 13
    else roundShift (f + 2 ^ 23) (126 - e)
  UInt16.ofNat (sign + pattern)

end CausalLM.Half
