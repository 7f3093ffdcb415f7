import CausalLM.Number.Half
import CausalLM.Container.Header
/-!
# Container.Draft — writing a container

A draft is the metadata pairs and the tensors of a container in the order they were added.  `Draft.bytes` lays it out
as version 3: the header, padded to the alignment, then the data of each tensor at a multiple of the alignment.  The
draft's alignment is always the default one.
-/
namespace CausalLM.Container

/-- **A value that can be written.** -/
inductive Draft.Value where
  | word32 (n : Nat)
  | word64 (n : Nat)
  | single (x : Single)
  | bool (b : Bool)
  | string (s : String)
  | strings (l : List String)
  | integers (l : List Int)

/-- A tensor and its data. -/
structure Draft.Tensor where
  name : String
  dims : List Nat
  type : ElementType
  data : Bytes

/-- **A container to be written.** -/
structure Draft where
  pairs : List (String × Draft.Value)
  tensors : List Draft.Tensor

namespace Draft

def empty : Draft := ⟨[], []⟩

/-- Adds a metadata pair behind the others. -/
def add (d : Draft) (key : String) (value : Value) : Draft := { d with pairs := d.pairs ++ [(key, value)] }

/-- Adds a tensor behind the others. -/
def addTensor (d : Draft) (t : Tensor) : Draft := { d with tensors := d.tensors ++ [t] }

def Tensor.ofSingles (name : String) (dims : List Nat) (values : List Single) : Tensor :=
  ⟨name, dims, .f32, values.flatMap fun x => Bytes.ofNat 4 x.bits.toNat⟩

/-- A tensor of binary16 numbers, each the nearest to the one given. -/
def Tensor.ofHalves (name : String) (dims : List Nat) (values : List Single) : Tensor :=
  ⟨name, dims, .f16, values.flatMap fun x => Bytes.ofNat 2 (Half.ofSingle x).toNat⟩

/-! ## Layout -/

def writeString (s : String) : Bytes := Bytes.ofNat 8 s.utf8ByteSize ++ Utf8.ofString s

def Value.type : Value → Nat
  | word32 _ => 4
  | single _ => 6
  | bool _ => 7
  | string _ => stringType
  | strings _ | integers _ => arrayType
  | word64 _ => 10

def Value.bytes : Value → Bytes
  | word32 n => Bytes.ofNat 4 n
  | word64 n => Bytes.ofNat 8 n
  | single x => Bytes.ofNat 4 x.bits.toNat
  | bool b => [if b then 1 else 0]
  | string s => writeString s
  | strings l => Bytes.ofNat 4 stringType ++ Bytes.ofNat 8 l.length ++ l.flatMap writeString
  | integers l => Bytes.ofNat 4 5 ++ Bytes.ofNat 8 l.length ++ l.flatMap (Bytes.ofInt 4)

def writePair (pair : String × Value) : Bytes :=
  writeString pair.1 ++ Bytes.ofNat 4 pair.2.type ++ pair.2.bytes

def alignment : Nat := Metadata.defaultAlignment

/-- The tensors with their offsets, the first at `offset`. -/
def placed (offset : Nat) : List Tensor → List (Tensor × Nat)
  | [] => []
  | t :: rest => (t, offset) :: placed (Word.roundUp alignment (offset + t.data.length)) rest

def writeInfo (t : Tensor) (offset : Nat) : Bytes :=
  writeString t.name ++ Bytes.ofNat 4 t.dims.length ++ t.dims.flatMap (Bytes.ofNat 8) ++
    Bytes.ofNat 4 t.type.id ++ Bytes.ofNat 8 offset

def header (d : Draft) : Bytes :=
  Bytes.ofNat 4 magic ++ Bytes.ofNat 4 3 ++ Bytes.ofNat 8 d.tensors.length ++ Bytes.ofNat 8 d.pairs.length ++
    d.pairs.flatMap writePair ++ (placed 0 d.tensors).flatMap fun (t, offset) => writeInfo t offset

/-- Fills up with zeros to a multiple of the alignment. -/
def padded (b : Bytes) : Bytes := b ++ List.replicate (Word.roundUp alignment b.length - b.length) 0

/-- The data of placed tensors, `written` bytes of it already out: zeros up to each offset, then the data. -/
def body (written : Nat) : List (Tensor × Nat) → Bytes
  | [] => []
  | (t, offset) :: rest =>
    List.replicate (offset - written) 0 ++ t.data ++ body (offset + t.data.length) rest

/-- **The bytes of the container.** -/
def bytes (d : Draft) : Bytes := padded d.header ++ body 0 (placed 0 d.tensors)

end Draft
end CausalLM.Container
