import CausalLM.Number.Single
import CausalLM.Text.Digits
/-!
# Text.Decimal — binary32 numbers in decimal

Writing gives the shortest decimal that reads back, reading the nearest number.

A binary32 number is written with the fewest digits that still round to it, and of those with the digits nearest to
it.  Decimals of one length lie on a grid of powers of ten, so the search walks the grids from coarse to fine and
tries, on each, the two points next to the number: the first grid with a point inside the rounding interval wins.
All comparisons are between whole numbers.
-/
namespace CausalLM.Decimal

/-- **The numbers that round to one binary number**, as whole multiples of `unit / scale`: from `low` to `high` with
`mid` the number itself, ends included or not. -/
structure Interval where
  low : Nat
  mid : Nat
  high : Nat
  unit : Nat
  scale : Nat
  closed : Bool

/-- The interval of a finite nonzero pattern with exponent field `e` and fraction field `f`. -/
def Interval.ofFields (e f : Nat) : Interval :=
  let m := if e = 0 then f else f + 2 ^ 23
  let q := max e 1
  let low := if f = 0 ∧ 1 < e then 4 * m - 1 else 4 * m - 2
  { low, mid := 4 * m, high := 4 * m + 2, unit := 2 ^ q, scale := 2 ^ 152, closed := m % 2 = 0 }

/-- The product of `n` and `10 ^ k` lies in the interval. -/
def Interval.holds (i : Interval) (stepUp stepDown n : Nat) : Bool :=
  let p := n * stepUp * i.scale
  let l := i.low * i.unit * stepDown
  let h := i.high * i.unit * stepDown
  if i.closed then l ≤ p && p ≤ h else l < p && p < h

/-- The better of the number's two neighbours on the grid of `10 ^ k`, if one lies in the interval; halfway between
them the larger. -/
def Interval.onGrid (i : Interval) (k : Int) : Option Nat :=
  let stepUp := 10 ^ k.toNat
  let stepDown := 10 ^ (-k).toNat
  let v := i.mid * i.unit * stepDown
  let n := v / (stepUp * i.scale)
  match i.holds stepUp stepDown n, i.holds stepUp stepDown (n + 1) with
  | true, true => if 2 * v < (2 * n + 1) * (stepUp * i.scale) then some n else some (n + 1)
  | true, false => some n
  | false, true => some (n + 1)
  | false, false => none

/-- The digits and the power of ten, from the grid of `10 ^ top` down through `grids` finer ones. -/
def Interval.search (i : Interval) (top : Int) : Nat → Nat × Int
  | 0 => (0, 0)
  | grids + 1 => match i.onGrid top with
    | some n => (n, top)
    | none => i.search (top - 1) grids

/-- The product of `n` and `10 ^ k` in digits and at most one point, never an exponent. -/
def positional (n : Nat) (k : Int) : String :=
  let ds := Nat.toDigits 10 n
  if 0 ≤ k then String.ofList (ds ++ List.replicate k.toNat '0')
  else
    let places := (-k).toNat
    if places < ds.length then
      String.ofList (ds.take (ds.length - places) ++ '.' :: ds.drop (ds.length - places))
    else String.ofList ('0' :: '.' :: (List.replicate (places - ds.length) '0' ++ ds))

/-- **The text of a binary32 number**: the shortest digits, a whole number without a point, `NaN` and `inf` by name. -/
def ofSingle (x : Single) : String :=
  if x.isNaN then "NaN"
  else
    let sign := if x.isNegative then "-" else ""
    if x.isInfinite then sign ++ "inf"
    else if x.magnitude = 0 then sign ++ "0"
    else
      let (n, k) := (Interval.ofFields x.exponentField x.fractionField).search 39 96
      sign ++ positional n k

/-! ## Reading -/

/-- The whole number nearest to `a / b`, a tie to the even one. -/
def roundDiv (a b : Nat) : Nat :=
  let q := a / b
  let r := a % b
  if b < 2 * r ∨ (2 * r = b ∧ q % 2 = 1) then q + 1 else q

/-- The exponent at which a positive `a / b` has 24 binary digits before the point, not below that of the subnormal
numbers. -/
def scaleOf (a b : Nat) : Int :=
  let guess : Int := (a.log2 : Int) - b.log2 - 23
  let exact := if a * 2 ^ (-guess).toNat < b * 2 ^ guess.toNat * 2 ^ 23 then guess - 1 else guess
  max exact (-149)

/-- The pattern of the binary32 number nearest to a positive `a / b`. -/
def nearestPattern (a b : Nat) : Nat :=
  let e := scaleOf a b
  let q := roundDiv (a * 2 ^ (-e).toNat) (b * 2 ^ e.toNat)
  min ((e + 149).toNat * 2 ^ 23 + q) 0x7f800000

/-- The binary32 number nearest to `n` times `10 ^ k`. -/
def nearestSingle (isNegative : Bool) (n : Nat) (k : Int) : Single :=
  let size : Int := (Nat.toDigits 10 n).length + k
  let pattern :=
    if n = 0 ∨ size < -60 then 0
    else if 60 < size then 0x7f800000
    else nearestPattern (n * 10 ^ k.toNat) (10 ^ (-k).toNat)
  ⟨UInt32.ofNat (pattern + if isNegative then 2 ^ 31 else 0)⟩

/-- The exponent that the rest of a number gives; nothing is none. -/
def readExponent : List Char → Option Int
  | [] => some 0
  | e :: s => if e = 'e' ∨ e = 'E' then Digits.readInt? s else none

/-- **Reads a binary32 number**: a sign, digits with a point anywhere among them, an exponent; or infinity or NaN by
name, in any case. -/
def readSingle (text : String) : Option Single :=
  let (minus, s) := Digits.splitSign text.toList
  let word := String.ofList (s.map Char.toLower)
  if word = "inf" ∨ word = "infinity" then some (if minus then .negInfinity else .infinity)
  else if word = "nan" then some ⟨if minus then 0xffc00000 else 0x7fc00000⟩
  else
    let whole := s.takeWhile Char.isDigit
    let rest := s.dropWhile Char.isDigit
    let (places, rest) := match rest with
      | '.' :: s => (s.takeWhile Char.isDigit, s.dropWhile Char.isDigit)
      | s => ([], s)
    if whole.isEmpty && places.isEmpty then none
    else (readExponent rest).map fun e => nearestSingle minus (Digits.value (whole ++ places)) (e - places.length)

end CausalLM.Decimal
