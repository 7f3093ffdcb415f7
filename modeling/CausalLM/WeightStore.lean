import CausalLM.Container.Header
import CausalLM.Number.Half
import CausalLM.Tensor
/-!
# WeightStore — the tensors of a file, in memory

Loading reads every tensor that a header describes from the bytes of the file and widens it to binary32.  Each range
is checked against the length of the file before it is read, because the file may be shorter than its header says.
-/
namespace CausalLM

open Container (Header TensorInfo ElementType)

/-- **The tensors of a file by name**, and what the load accounts for. -/
structure WeightStore where
  tensors : Dictionary Tensor
  /-- Bytes of all tensors that were loaded. -/
  residentBytes : Nat
  /-- Bytes of the file. -/
  mappedBytes : Nat

namespace WeightStore

/-- The bytes `[start, stop)` of the data of a tensor, if the file has them. -/
def slice (file : Bytes) (dataOffset : Nat) (info : TensorInfo) : Except Error Bytes :=
  match Word.checkedAdd dataOffset info.offset with
  | none => .error (.formatMismatch ("tensor '" ++ info.name ++ "' offset overflows"))
  | some start => match Word.checkedAdd start info.bytes with
    | none => .error (.formatMismatch ("tensor '" ++ info.name ++ "' size overflows"))
    | some stop =>
      if file.length < stop then
        .error (.formatMismatch ("tensor '" ++ info.name ++ "' data [" ++ toString start ++ ", " ++ toString stop ++
          ") past end of file (" ++ toString file.length ++ " bytes)"))
      else .ok ((file.drop start).take info.bytes)

/-- So many groups of `width + 1` bytes, in order. -/
def groups (width : Nat) : Nat → Bytes → List Bytes
  | 0, _ => []
  | n + 1, b => b.take (width + 1) :: groups width n (b.drop (width + 1))

/-- The stored forms that can be read: the bytes of an element less one, and its value. -/
def reader? : ElementType → Option (Storage × Nat × (Bytes → Single))
  | .f32 => some (.f32, 3, fun b => ⟨UInt32.ofNat b.toNat⟩)
  | .f16 => some (.f16, 1, fun b => Half.toSingle (UInt16.ofNat b.toNat))
  | .bf16 => some (.bf16, 1, fun b => Half.ofBrain (UInt16.ofNat b.toNat))
  | _ => none

/-- **A tensor from its bytes.**  The values of the whole groups of bytes go over the front of a zeroed buffer. -/
def decode (info : TensorInfo) (raw : Bytes) : Except Error Tensor := do
  let buffer ← Memory.zeros info.elements
  match reader? info.type with
  | none => throw (.formatMismatch ("tensor '" ++ info.name ++ "' has unsupported type " ++ info.type.name))
  | some (storage, width, value) =>
    let values := (groups width (raw.length / (width + 1)) raw).map value
    return ⟨(Vec.overlay values buffer).toArray, info.dims, storage⟩

/-- Loads the tensors in order into `store`; of two with one name the later stays. -/
def loadInto (file : Bytes) (dataOffset : Nat) (store : WeightStore) : List TensorInfo → Except Error WeightStore
  | [] => .ok store
  | info :: rest => do
    let raw ← slice file dataOffset info
    let tensor ← decode info raw
    loadInto file dataOffset
      { store with
        tensors := Dictionary.insert info.name tensor store.tensors
        residentBytes := store.residentBytes + tensor.bytes }
      rest

/-- **Loads every tensor of a header** from the bytes of its file. -/
def load (file : Bytes) (header : Header) : Except Error WeightStore :=
  loadInto file header.dataOffset ⟨[], 0, file.length⟩ header.tensors

/-- A bound on what `load` holds at once: the file and a binary32 copy of every element. -/
def requiredBytes (header : Header) (fileBytes : Nat) : Nat :=
  Word.satAdd fileBytes (Word.satMul header.elements Memory.singleBytes)

def get? (s : WeightStore) (name : String) : Option Tensor := s.tensors.get? name

def missing (name : String) : Error := .formatMismatch ("missing tensor '" ++ name ++ "'")

def get (s : WeightStore) (name : String) : Except Error Tensor :=
  match s.get? name with
  | some t => .ok t
  | none => .error (missing name)

def take (s : WeightStore) (name : String) : Except Error (Tensor × WeightStore) :=
  match s.get? name with
  | some t => .ok (t, { s with tensors := Dictionary.erase name s.tensors })
  | none => .error (missing name)

def size (s : WeightStore) : Nat := s.tensors.length

def isEmpty (s : WeightStore) : Bool := s.tensors.isEmpty

end WeightStore
end CausalLM
