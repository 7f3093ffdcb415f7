import CausalLM.Bytes
import CausalLM.Text.Utf8
import CausalLM.Text.Decimal
import CausalLM.Container.ElementType
import CausalLM.Container.Metadata
/-!
# Container.Header — reading the header of a GGUF container

A container starts with a magic word, a version, the number of tensors and of metadata pairs, then the pairs, then one
description per tensor; the tensor data follows at the next multiple of the alignment.  Everything is little-endian.
Every count in the file is only a claim about what follows: reading goes on while there are bytes, and each value
takes at least one.
-/
namespace CausalLM.Container

/-- The four letters at the front of a container, as a word. -/
def magic : Nat := 0x46554747

/-- The longest string, in bytes. -/
def maxStringBytes : Nat := 16 * 1024 * 1024

/-- The longest array, in elements. -/
def maxArrayLength : Nat := 64 * 1024 * 1024

def maxDims : Nat := 4

/-- The failure of a header that stops too early. -/
def truncatedHeader : Error := .formatMismatch "truncated gguf header"

/-! ## Fields -/

/-- A reading of `s`: the value and what is left. -/
abbrev Reading (α : Type) (s : Bytes) := Except Error (α × Bytes.Left s)

/-- A field of `width + 1` bytes. -/
def readField (width : Nat) (s : Bytes) : Reading Bytes s :=
  match h : Bytes.split? (width + 1) s with
  | none => .error truncatedHeader
  | some (b, r) => .ok (b, ⟨r, by have := Bytes.split?_eq_some_iff.1 h; simp_all⟩)

def readWord32 (s : Bytes) : Reading Nat s :=
  (readField 3 s).map fun (b, r) => (b.toNat, r)

def readWord64 (s : Bytes) : Reading Nat s :=
  (readField 7 s).map fun (b, r) => (b.toNat, r)

/-- A string: its length in bytes, then the bytes. -/
def readString (s : Bytes) : Reading String s :=
  match readWord64 s with
  | .error e => .error e
  | .ok (n, r) =>
    if maxStringBytes < n then
      .error (.formatMismatch ("string too large: " ++ toString n ++ " bytes"))
    else match h : Bytes.split? n r.1 with
      | none => .error truncatedHeader
      | some (b, t) => .ok (Utf8.toStringLossy b, ⟨t, by
          have := Bytes.split?_eq_some_iff.1 h
          have := r.2
          simp_all
          omega⟩)

/-! ## Metadata values -/

def arrayType : Nat := 9

def stringType : Nat := 8

/-- **The types of fixed width**: one byte less than the width, and the value the bytes stand for. -/
def scalar? : Nat → Option (Nat × (Bytes → Metadata.Value))
  | 0 => some (0, fun b => .uint b.toNat)
  | 1 => some (0, fun b => .int b.toInt)
  | 2 => some (1, fun b => .uint b.toNat)
  | 3 => some (1, fun b => .int b.toInt)
  | 4 => some (3, fun b => .uint b.toNat)
  | 5 => some (3, fun b => .int b.toInt)
  | 6 => some (3, fun b => .float (Single.widen ⟨UInt32.ofNat b.toNat⟩))
  | 7 => some (0, fun b => .bool (b.toNat != 0))
  | 10 => some (7, fun b => .uint b.toNat)
  | 11 => some (7, fun b => .int b.toInt)
  | 12 => some (7, fun b => .float ⟨UInt64.ofNat b.toNat⟩)
  | _ => none

mutual

/-- **A value of the numbered type.**  An array is its element type, its length and its elements, which may be arrays
again. -/
def readValue (type : Nat) (s : Bytes) : Reading Metadata.Value s :=
  if type = stringType then (readString s).map fun (x, r) => (.string x, r)
  else if type = arrayType then
    match readWord32 s with
    | .error e => .error e
    | .ok (itemType, r) => match readWord64 r.1 with
      | .error e => .error e
      | .ok (n, t) =>
        if maxArrayLength < n then
          .error (.formatMismatch ("array too large: " ++ toString n ++ " elements"))
        else
          have ht : t.1.length < s.length := Nat.lt_trans t.2 r.2
          match readItems itemType n [] t.1 s.length ht with
          | .error e => .error e
          | .ok (items, u) => .ok (.array items, u)
  else match scalar? type with
    | some (width, value) => (readField width s).map fun (b, r) => (value b, r)
    | none => .error (.formatMismatch ("unknown metadata value type " ++ toString type))
termination_by (s.length, 0)

/-- So many values of one type, put behind the ones already read, which stand in reverse.  What is left stays below
the `limit` of the array's own value. -/
def readItems (type : Nat) (n : Nat) (done : List Metadata.Value) (s : Bytes) (limit : Nat) (h : s.length < limit) :
    Except Error (List Metadata.Value × { r : Bytes // r.length < limit }) :=
  match n with
  | 0 => .ok (done.reverse, ⟨s, h⟩)
  | n + 1 => match readValue type s with
    | .error e => .error e
    | .ok (v, r) => readItems type n (v :: done) r.1 limit (Nat.lt_trans r.2 h)
termination_by (s.length, 1)
decreasing_by
  · exact Prod.Lex.right _ (by decide)
  · exact Prod.Lex.left _ _ r.2

end

/-- A metadata pair: the key, the type of the value, the value. -/
def readPair (s : Bytes) : Reading (String × Metadata.Value) s :=
  match readString s with
  | .error e => .error e
  | .ok (key, r) => match readWord32 r.1 with
    | .error e => .error e
    | .ok (type, t) => match readValue type t.1 with
      | .error e => .error e
      | .ok (value, u) => .ok ((key, value), ⟨u.1, Nat.lt_trans u.2 (Nat.lt_trans t.2 r.2)⟩)

/-- So many metadata pairs, added to `m`. -/
def readPairs (n : Nat) (m : Metadata) (s : Bytes) : Except Error (Metadata × Bytes) :=
  match n with
  | 0 => .ok (m, s)
  | n + 1 => match readPair s with
    | .error e => .error e
    | .ok ((key, value), r) => readPairs n (m.insert key value) r.1

/-! ## Tensors -/

/-- **What a header says of one tensor.** -/
structure TensorInfo where
  name : String
  /-- The length of a row first. -/
  dims : List Nat
  type : ElementType
  /-- Where the data starts, counted from the start of all tensor data. -/
  offset : Nat
  deriving DecidableEq, Repr, Inhabited

namespace TensorInfo

/-- The number of elements; stops at the largest word, which no header that was read reaches. -/
def elements (t : TensorInfo) : Nat := Word.satProd t.dims

def bytes (t : TensorInfo) : Nat := t.type.bytesFor t.elements

end TensorInfo

def readWords (n : Nat) (s : Bytes) : Except Error (List Nat × { r : Bytes // r.length ≤ s.length }) :=
  match n with
  | 0 => .ok ([], ⟨s, Nat.le_refl _⟩)
  | n + 1 => match readWord64 s with
    | .error e => .error e
    | .ok (d, r) => match readWords n r.1 with
      | .error e => .error e
      | .ok (ds, t) => .ok (d :: ds, ⟨t.1, Nat.le_trans t.2 (Nat.le_of_lt r.2)⟩)

/-- The product from the left, as long as it fits in a word. -/
def checkedProduct (dims : List Nat) : Option Nat := dims.foldlM Word.checkedMul 1

/-- The running total with the elements of one more tensor, as long as it and its size in binary32 fit in a word. -/
def totalWith (total : Nat) (dims : List Nat) : Option Nat := do
  let n ← checkedProduct dims
  let total ← Word.checkedAdd total n
  let _ ← Word.checkedMul total 4
  some total

def showDims (dims : List Nat) : String := "[" ++ ", ".intercalate (dims.map toString) ++ "]"

/-- One tensor description, and the running total of elements with it. -/
def readTensor (total : Nat) (s : Bytes) : Reading (TensorInfo × Nat) s :=
  match readString s with
  | .error e => .error e
  | .ok (name, r) => match readWord32 r.1 with
    | .error e => .error e
    | .ok (n, t) =>
      if n = 0 ∨ maxDims < n then
        .error (.formatMismatch ("tensor '" ++ name ++ "' has " ++ toString n ++ " dimensions"))
      else match readWords n t.1 with
        | .error e => .error e
        | .ok (dims, u) => match readWord32 u.1 with
          | .error e => .error e
          | .ok (id, v) => match ElementType.ofId id with
            | .error e => .error e
            | .ok type => match readWord64 v.1 with
              | .error e => .error e
              | .ok (offset, w) => match totalWith total dims with
                | none =>
                  .error (.formatMismatch ("tensor '" ++ name ++ "' dimensions " ++ showDims dims ++ " overflow"))
                | some total =>
                  .ok (({ name, dims, type, offset }, total), ⟨w.1, by
                    have := r.2; have := t.2; have := u.2; have := v.2; have := w.2; omega⟩)

/-- So many tensor descriptions, put behind the ones already read, which stand in reverse. -/
def readTensors (n total : Nat) (done : List TensorInfo) (s : Bytes) : Except Error (List TensorInfo × Bytes) :=
  match n with
  | 0 => .ok (done.reverse, s)
  | n + 1 => match readTensor total s with
    | .error e => .error e
    | .ok ((info, total), r) => readTensors n total (info :: done) r.1

/-! ## The header -/

/-- **The header of a container.** -/
structure Header where
  version : Nat
  metadata : Metadata
  tensors : List TensorInfo
  /-- Where tensor data begins, counted from the start of the file. -/
  dataOffset : Nat
  deriving Inhabited

namespace Header

/-- Eight hexadecimal digits, in capitals. -/
def showMagic (n : Nat) : String :=
  let ds := (Nat.toDigits 16 n).map Char.toUpper
  "0x" ++ String.ofList (List.replicate (8 - ds.length) '0' ++ ds)

def supportedVersion (v : Nat) : Bool := v == 2 || v == 3

/-- **Reads the header at the front of a file**, and with it the number of bytes it takes. -/
def read (file : Bytes) : Except Error (Header × Nat) := do
  let (word, r) ← readWord32 file
  if word ≠ magic then
    throw (.formatMismatch ("invalid gguf magic: expected " ++ showMagic magic ++ ", got " ++ showMagic word))
  let (version, r) ← readWord32 r.1
  if !supportedVersion version then
    throw (.formatMismatch ("unsupported gguf version " ++ toString version))
  let (tensorCount, r) ← readWord64 r.1
  let (pairCount, r) ← readWord64 r.1
  let (metadata, r) ← readPairs pairCount .empty r.1
  let (tensors, r) ← readTensors tensorCount 0 [] r
  let size := file.length - r.length
  return ({ version, metadata, tensors, dataOffset := Word.roundUp metadata.alignment size }, size)

def parse (file : Bytes) : Except Error Header := (read file).map (·.1)

/-- The first tensor with this name. -/
def tensor? (h : Header) (name : String) : Option TensorInfo := h.tensors.find? (·.name == name)

/-- Buffers and small tables that go with any header. -/
def baseBytes : Nat := 1024 * 1024

def infoBytes : Nat := 64

/-- **A bound on the bytes a header holds**, with the book-keeping that the weights later add by name. -/
def heapBound (h : Header) : Nat :=
  h.tensors.foldl
    (fun acc t => Word.satAdd acc (8 * infoBytes + 4 * t.name.utf8ByteSize + 8 * t.dims.length))
    (baseBytes + h.metadata.heapBound)

def elements (h : Header) : Nat := Word.satSum (h.tensors.map TensorInfo.elements)

end Header
end CausalLM.Container
