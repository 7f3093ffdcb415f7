import CausalLM.Memory
/-!
# Tensor — weights, and the operations of a forward pass

A tensor holds its numbers row after row, the row length first among its dimensions, so that the weight of a linear
map from `n` to `m` numbers has dimensions `[n, m]` and `m` rows.  `Kernels` collects the operations on vectors that
a forward pass is made of; `Kernels.machine` is the set that runs.
-/
namespace CausalLM

/-- How a tensor was stored in its file; in memory every tensor is binary32. -/
inductive Storage where
  | f32 | f16 | bf16
  deriving DecidableEq, Repr, Inhabited

namespace Storage

def bytesPerElement : Storage → Nat
  | f32 => 4
  | f16 | bf16 => 2

def name : Storage → String
  | f32 => "F32"
  | f16 => "F16"
  | bf16 => "BF16"

end Storage

/-- **A tensor.** -/
structure Tensor where
  data : Array Single
  dims : List Nat
  storage : Storage
  deriving DecidableEq, Repr, Inhabited

namespace Tensor

/-- The number of elements the dimensions stand for. -/
def elements (t : Tensor) : Nat := t.dims.foldl (· * ·) 1

/-- There are no dimensions, or all are zero. -/
def hasNoExtent (t : Tensor) : Bool := t.dims.all (· == 0)

def rowLength (t : Tensor) : Nat := t.dims.headD 0

def rows (t : Tensor) : Nat := t.elements / t.rowLength

def bytes (t : Tensor) : Nat := t.data.size * Memory.singleBytes

/-- The numbers of row `r`. -/
def rowData (t : Tensor) (r : Nat) : Vec :=
  (t.data.extract (r * t.rowLength) ((r + 1) * t.rowLength)).toList

/-- Row `r`, if there is one. -/
def row? (t : Tensor) (r : Nat) : Option Vec :=
  if r < t.rows ∧ (r + 1) * t.rowLength ≤ t.data.size then some (t.rowData r) else none

/-- The tensor with every number changed by `f`. -/
def map (t : Tensor) (f : Single → Single) : Tensor := { t with data := t.data.map f }

end Tensor

/-! ## Operations on vectors -/

/-- **The vector operations of a forward pass.**  None changes the length of what it works on. -/
structure Kernels where
  /-- The sum of the products of two vectors' entries. -/
  dot : Vec → Vec → Single
  /-- Centred, scaled to unit variance up to `eps`, then weighted and shifted: `normalise x weight bias eps`. -/
  normalise : Vec → Vec → Vec → Single → Vec
  softmax : Vec → Vec
  gelu : Vec → Vec
  /-- The first vector with the entries of the second added. -/
  add : Vec → Vec → Vec
  length_normalise : ∀ x w b eps, (normalise x w b eps).length = min (min x.length w.length) b.length
  length_softmax : ∀ x, (softmax x).length = x.length
  length_gelu : ∀ x, (gelu x).length = x.length
  length_add : ∀ x y, (add x y).length = x.length

namespace Vec

/-- The sum from the left; the sum of nothing is `-0`. -/
def sum (x : Vec) : Single := x.foldl (· + ·) .negZero

def dot (x y : Vec) : Single := sum (List.zipWith (· * ·) x y)

/-- Applies `f` to the entries of `x` and those of `y`; entries of `x` beyond `y` stay. -/
def update (f : Single → Single → Single) : Vec → Vec → Vec
  | [], _ => []
  | x, [] => x
  | a :: x, b :: y => f a b :: update f x y

def add (x y : Vec) : Vec := update (· + ·) x y

def normalise (x weight bias : Vec) (eps : Single) : Vec :=
  let n := Single.ofNat x.length
  let mean := sum x / n
  let variance := sum (x.map fun v => (v - mean) * (v - mean)) / n
  let deviation := (variance + eps).sqrt
  List.zipWith (fun (v, w) b => (v - mean) / deviation * w + b) (List.zip x weight) bias

/-- The largest entry; minus infinity if there is none. -/
def maximum (x : Vec) : Single := x.foldl Single.max .negInfinity

/-- Exponentials scaled to sum to one; left unscaled when their sum is not positive. -/
def softmax (x : Vec) : Vec :=
  let top := maximum x
  let powers := x.map fun v => (v - top).exp
  let total := powers.foldl (· + ·) .zero
  if Single.zero.lt total then powers.map (· / total) else powers

/-- The slope of the tanh in `gelu`. -/
def geluSlope : Single := ⟨0x3f4c422a⟩

/-- The weight of the cube in `gelu`. -/
def geluCube : Single := ⟨0x3d372713⟩

def gelu (x : Vec) : Vec :=
  x.map fun t => .half * t * (.one + (geluSlope * (t + geluCube * t * t * t)).tanh)

/-- Writes `new` over the front of `old`. -/
def overlay (new old : Vec) : Vec := new.take old.length ++ old.drop new.length

@[simp] theorem length_update (f : Single → Single → Single) : ∀ x y : Vec, (update f x y).length = x.length
  | [], _ => by simp [update]
  | _ :: _, [] => by simp [update]
  | _ :: x, _ :: y => by simp [update, length_update f x y]

@[simp] theorem length_overlay (new old : Vec) : (overlay new old).length = old.length := by
  simp [overlay]; omega

theorem overlay_eq_of_length_eq {new old : Vec} (h : new.length = old.length) : overlay new old = new := by
  simp [overlay, ← h]

end Vec

/-- **The operations in the machine's arithmetic.** -/
def Kernels.machine : Kernels where
  dot := Vec.dot
  normalise := Vec.normalise
  softmax := Vec.softmax
  gelu := Vec.gelu
  add := Vec.add
  length_normalise := by intros; simp [Vec.normalise]
  length_softmax := by intro x; unfold Vec.softmax; dsimp only; split <;> simp
  length_gelu := by intro x; simp [Vec.gelu]
  length_add := by intro x y; simp [Vec.add]

/-- **A linear map**: the rows of `w` against `x`, plus a bias, into a buffer of `size` numbers. -/
def Tensor.apply (k : Kernels) (w : Tensor) (x : Vec) (bias : Option Tensor) (size : Nat) : Except Error Vec :=
  let n := w.rowLength
  let m := w.rows
  if x.length ≠ n ∨ size ≠ m then
    .error (.formatMismatch ("matvec: weight [" ++ toString n ++ ", " ++ toString m ++ "] against input " ++
      toString x.length ++ " / output " ++ toString size))
  else match bias with
    | none => .ok ((List.range m).map fun r => k.dot (w.rowData r) x + .zero)
    | some b =>
      if b.elements ≠ m then
        .error (.formatMismatch ("matvec: bias of " ++ toString b.elements ++ " for " ++ toString m ++ " rows"))
      else .ok ((List.range m).map fun r => k.dot (w.rowData r) x + b.data.getD r .zero)

end CausalLM
