import CausalLM.Number.Word
/-!
# Number.Single — binary32 numbers, held by their bits

A number is its 32-bit pattern, so two numbers are equal exactly when their bits are: the payload of a NaN and the
sign of a zero are data that is stored, saved and restored like any other.  Arithmetic goes through the machine's
binary32 unit, except that what becomes of a NaN is settled here.  Comparison, the total order and the widening to
binary64 are defined on the bits.
-/
namespace CausalLM

/-- **A binary32 number**: its sign, exponent and fraction in one word. -/
structure Single where
  bits : UInt32
  deriving DecidableEq, Repr, Inhabited

namespace Single

def magnitude (x : Single) : Nat := x.bits.toNat % 0x80000000

def isNaN (x : Single) : Bool := 0x7f800000 < x.magnitude

/-! ## Arithmetic -/

/-- The machine's number with these bits. -/
@[inline] def value (x : Single) : Float32 := Float32.ofBits x.bits

/-- The bits of a machine number. -/
@[inline] def ofValue (v : Float32) : Single := ⟨v.toBits⟩

/-- The NaN of an operation that has no value, such as the difference of two infinities. -/
def invalid : Single := ⟨0xffc00000⟩

/-- The number with the bit set that makes a NaN quiet. -/
def quiet (x : Single) : Single := ⟨x.bits ||| 0x00400000⟩

/-- The result `v` of an operation on `x` and `y`.  A NaN among them passes through, the left one first, with its sign
and its payload; where neither is one and `v` is, the operation has no value. -/
def settle (x y : Single) (v : Float32) : Single :=
  if v.isNaN then if x.isNaN then x.quiet else if y.isNaN then y.quiet else invalid
  else ofValue v

instance : Add Single := ⟨fun x y => settle x y (x.value + y.value)⟩
instance : Sub Single := ⟨fun x y => settle x y (x.value - y.value)⟩
instance : Mul Single := ⟨fun x y => settle x y (x.value * y.value)⟩
instance : Div Single := ⟨fun x y => settle x y (x.value / y.value)⟩

def sqrt (x : Single) : Single := settle x x x.value.sqrt
def exp (x : Single) : Single := settle x x x.value.exp
def ceil (x : Single) : Single := settle x x x.value.ceil
def tanh (x : Single) : Single := settle x x x.value.tanh

/-- The nearest number to a count. -/
def ofNat (n : Nat) : Single := ofValue n.toUInt64.toFloat32

/-- The whole part as a word: below zero and NaN give zero, too large gives the largest word. -/
def toWord (x : Single) : Nat := x.value.toUInt64.toNat

def zero : Single := ⟨0x00000000⟩
def negZero : Single := ⟨0x80000000⟩
def one : Single := ⟨0x3f800000⟩
def two : Single := ⟨0x40000000⟩
def half : Single := ⟨0x3f000000⟩
def infinity : Single := ⟨0x7f800000⟩
def negInfinity : Single := ⟨0xff800000⟩

/-! ## The parts of the pattern -/

def isNegative (x : Single) : Bool := 0x80000000 ≤ x.bits.toNat

/-- The exponent field, 0 to 255. -/
def exponentField (x : Single) : Nat := x.magnitude / 2 ^ 23

/-- The fraction field, 23 bits. -/
def fractionField (x : Single) : Nat := x.magnitude % 2 ^ 23

def isInfinite (x : Single) : Bool := x.magnitude == 0x7f800000
def isFinite (x : Single) : Bool := x.magnitude < 0x7f800000

/-! ## Orders -/

/-- Places the numbers that are not NaN on a line; the two zeros share a place. -/
def place (x : Single) : Int := if x.isNegative then -(x.magnitude : Int) else x.magnitude

/-- IEEE `<`: false as soon as one side is NaN. -/
def lt (x y : Single) : Bool := !x.isNaN && !y.isNaN && decide (x.place < y.place)

/-- IEEE `≤`: false as soon as one side is NaN. -/
def le (x y : Single) : Bool := !x.isNaN && !y.isNaN && decide (x.place ≤ y.place)

/-- IEEE `=`: the zeros are equal, a NaN equals nothing. -/
def eq (x y : Single) : Bool := !x.isNaN && !y.isNaN && decide (x.place = y.place)

/-- The rank in IEEE's total order, in which `-0` comes before `+0` and the NaNs stand outside the infinities. -/
def rank (x : Single) : Int := if x.isNegative then -(x.magnitude : Int) - 1 else x.magnitude

/-- The larger of two numbers; a NaN gives way to the other side. -/
def max (x y : Single) : Single :=
  if x.isNaN then y else if y.isNaN then x else if x.lt y then y else x

theorem magnitude_lt (x : Single) : x.magnitude < 2 ^ 31 := Nat.mod_lt _ (by decide)

theorem rank_injective {x y : Single} (h : x.rank = y.rank) : x = y := by
  obtain ⟨⟨⟨a, ha⟩⟩⟩ := x
  obtain ⟨⟨⟨b, hb⟩⟩⟩ := y
  simp only [rank, isNegative, magnitude, UInt32.toNat] at h
  have ha' : a < 4294967296 := ha
  have hb' : b < 4294967296 := hb
  have e : a = b := by
    simp only [BitVec.toNat_ofFin, decide_eq_true_eq] at h
    split at h <;> split at h <;> omega
  subst e
  rfl

end Single
end CausalLM
