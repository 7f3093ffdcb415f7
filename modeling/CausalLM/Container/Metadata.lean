import CausalLM.Dictionary
import CausalLM.Number.Double
import CausalLM.Number.Word
/-!
# Container.Metadata — the key and value pairs of a container

Metadata describes a model: its architecture, its sizes, its vocabulary.  A key has one value, the last one given for
it.  Readers ask for a value in the shape they need and get nothing if it has another.
-/
namespace CausalLM.Container

/-- **A metadata value.**  The widths of stored integers are not kept, only whether they were signed. -/
inductive Metadata.Value where
  | uint (n : Nat)
  | int (n : Int)
  | float (x : Double)
  | string (s : String)
  | bool (b : Bool)
  | array (items : List Metadata.Value)
  deriving Repr, Inhabited

namespace Metadata.Value

def asUint : Value → Option Nat
  | uint n => some n
  | int n => if 0 ≤ n then some n.toNat else none
  | _ => none

def asInt : Value → Option Int
  | int n => some n
  | uint n => if n < 2 ^ 63 then some n else none
  | _ => none

def asFloat : Value → Option Double
  | float x => some x
  | int n => some (if 0 ≤ n then Double.ofNat n.toNat else (Double.ofNat (-n).toNat).neg)
  | uint n => some (Double.ofNat n)
  | _ => none

def asString : Value → Option String
  | string s => some s
  | _ => none

def asArray : Value → Option (List Value)
  | array items => some items
  | _ => none

def slotBytes : Nat := 32

mutual

/-- **A bound on the bytes a value holds**, its own slot included.  A string counts twice its length and an item of
an array three slots, which covers the copies and the growth while parsing. -/
def heapBound : Value → Nat
  | string s => slotBytes + 2 * s.utf8ByteSize
  | array items => heapBoundFrom slotBytes items
  | _ => slotBytes

/-- The bound of the items on top of `acc`. -/
def heapBoundFrom (acc : Nat) : List Value → Nat
  | [] => acc
  | v :: items => heapBoundFrom (Word.satAdd acc (heapBound v + 2 * slotBytes)) items

end

end Metadata.Value

/-- **The metadata of a container.** -/
structure Metadata where
  entries : Dictionary Metadata.Value
  deriving Inhabited

namespace Metadata

def empty : Metadata := ⟨[]⟩

/-- Gives `key` the value, in place of an earlier one. -/
def insert (m : Metadata) (key : String) (value : Value) : Metadata := ⟨Dictionary.insert key value m.entries⟩

def get? (m : Metadata) (key : String) : Option Value := m.entries.get? key

def string? (m : Metadata) (key : String) : Option String := (m.get? key).bind Value.asString

def uint? (m : Metadata) (key : String) : Option Nat := (m.get? key).bind Value.asUint

def float? (m : Metadata) (key : String) : Option Double := (m.get? key).bind Value.asFloat

def array? (m : Metadata) (key : String) : Option (List Value) := (m.get? key).bind Value.asArray

/-- The strings in an array; items of other types are passed over. -/
def strings (m : Metadata) (key : String) : List String :=
  ((m.array? key).getD []).filterMap Value.asString

/-- The integers in an array; items of other types are passed over. -/
def ints (m : Metadata) (key : String) : List Int :=
  ((m.array? key).getD []).filterMap Value.asInt

/-- The number of strings in an array and the sum of their byte lengths. -/
def stringStats (m : Metadata) (key : String) : Nat × Nat :=
  let texts := m.strings key
  (texts.length, texts.foldl (fun total text => total + text.utf8ByteSize) 0)

def entryBytes : Nat := 56

def heapBound (m : Metadata) : Nat :=
  Word.satSum (m.entries.map fun (key, value) => 4 * entryBytes + 2 * key.utf8ByteSize + value.heapBound)

def architecture (m : Metadata) : Option String := m.string? "general.architecture"

/-- The alignment of a container that does not say. -/
def defaultAlignment : Nat := 32

def isPowerOfTwo (n : Nat) : Bool := n == 2 ^ n.log2

/-- The alignment of tensor data: the container's own, if it is a power of two. -/
def alignment (m : Metadata) : Nat :=
  match m.uint? "general.alignment" with
  | some a => if isPowerOfTwo a then a else defaultAlignment
  | none => defaultAlignment

theorem get?_insert (m : Metadata) (key k : String) (value : Value) :
    (m.insert key value).get? k = if k = key then some value else m.get? k :=
  Dictionary.get?_insert key k value m.entries

/-- **The last value given for a key counts.** -/
theorem get?_foldl_insert {α : Type} (key : α → String) (value : α → Value) (k : String) (l : List α) (m : Metadata) :
    (l.foldl (fun m a => m.insert (key a) (value a)) m).get? k =
      ((l.reverse.find? (key · == k)).map value).or (m.get? k) := by
  rw [get?, get?, ← Dictionary.get?_foldl_insert key value k l m.entries]
  congr 1
  exact (List.foldl_hom entries fun _ _ => rfl).symm

end Metadata
end CausalLM.Container
