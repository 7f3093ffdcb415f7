import CausalLM.Number.Single
/-!
# Number.Double — binary64 numbers, held by their bits

As with `Single`, a number is its pattern.  Binary64 is what metadata floats, the sampler's probabilities and the
random draws are computed in; `Single.widen` carries a binary32 number over without loss.
-/
namespace CausalLM

/-- **A binary64 number**: its sign, exponent and fraction in one word. -/
structure Double where
  bits : UInt64
  deriving DecidableEq, Repr, Inhabited

namespace Double

/-- The machine's number with these bits. -/
@[inline] def value (x : Double) : Float := Float.ofBits x.bits

/-- The bits of a machine number. -/
@[inline] def ofValue (v : Float) : Double := ⟨v.toBits⟩

instance : Add Double := ⟨fun x y => ofValue (x.value + y.value)⟩
instance : Sub Double := ⟨fun x y => ofValue (x.value - y.value)⟩
instance : Mul Double := ⟨fun x y => ofValue (x.value * y.value)⟩
instance : Div Double := ⟨fun x y => ofValue (x.value / y.value)⟩

def exp (x : Double) : Double := ofValue x.value.exp

/-- The nearest number to a count below `2 ^ 64`. -/
def ofNat (n : Nat) : Double := ofValue n.toUInt64.toFloat

def neg (x : Double) : Double := ⟨x.bits ^^^ 0x8000000000000000⟩

def zero : Double := ⟨0x0000000000000000⟩
def negZero : Double := ⟨0x8000000000000000⟩

def magnitude (x : Double) : Nat := x.bits.toNat % 2 ^ 63

def isNegative (x : Double) : Bool := 2 ^ 63 ≤ x.bits.toNat
def isNaN (x : Double) : Bool := 0x7ff0000000000000 < x.magnitude
def isInfinite (x : Double) : Bool := x.magnitude == 0x7ff0000000000000
def isFinite (x : Double) : Bool := x.magnitude < 0x7ff0000000000000

/-- Places the numbers that are not NaN on a line; the two zeros share a place. -/
def place (x : Double) : Int := if x.isNegative then -(x.magnitude : Int) else x.magnitude

/-- IEEE `<`: false as soon as one side is NaN. -/
def lt (x y : Double) : Bool := !x.isNaN && !y.isNaN && decide (x.place < y.place)

/-- IEEE `≤`: false as soon as one side is NaN. -/
def le (x y : Double) : Bool := !x.isNaN && !y.isNaN && decide (x.place ≤ y.place)

/-- The nearest binary32 number; a NaN keeps its sign and the top of its payload and becomes quiet. -/
def toSingle (x : Double) : Single :=
  if x.isNaN then
    ⟨UInt32.ofNat ((if x.isNegative then 511 else 255) * 2 ^ 23 + (x.magnitude % 2 ^ 52 / 2 ^ 29 ||| 2 ^ 22))⟩
  else Single.ofValue x.value.toFloat32

end Double

/-- **The same number in binary64.**  A normal number moves its exponent to the wider bias; a subnormal one becomes
normal; a NaN keeps its payload and becomes quiet. -/
def Single.widen (x : Single) : Double :=
  let sign := if x.isNegative then 2 ^ 63 else 0
  let e := x.exponentField
  let f := x.fractionField
  let pattern :=
    if e = 255 then
      if f = 0 then 2047 * 2 ^ 52 else 2047 * 2 ^ 52 + (f * 2 ^ 29 ||| 2 ^ 51)
    else if e = 0 then
      if f = 0 then 0 else (f.log2 + 874) * 2 ^ 52 + (f - 2 ^ f.log2) * 2 ^ (52 - f.log2)
    else (e + 896) * 2 ^ 52 + f * 2 ^ 29
  ⟨UInt64.ofNat (sign + pattern)⟩

end CausalLM
