import CausalLM.Memory
/-!
# Cache — the key and value rows of evaluated positions

For every layer the cache has one flat buffer of keys and one of values, a row per position.  The buffers have their
full size from the start; `length` says how many positions count.  Rows beyond it are leftovers that nothing reads
until they are written again.

The size of a buffer and the places in it are words, and a product that is too large for a word wraps around: then the
buffers are too short for their positions.  Reading and writing in place (`keys?`, `values?`, `serve?`) has no answer
where a slice does not lie in its buffer.
-/
namespace CausalLM

/-- **The key and value rows of every layer.** -/
structure Cache where
  layerCount : Nat
  rowWidth : Nat
  /-- Positions that the buffers have room for. -/
  capacity : Nat
  keyBuffers : List Vec
  valueBuffers : List Vec
  /-- Positions that count. -/
  length : Nat
  deriving DecidableEq, Repr

namespace Cache

/-- So many pairs of zeroed buffers. -/
def buffers (size : Nat) : Nat → Except Error (List Vec × List Vec)
  | 0 => .ok ([], [])
  | layers + 1 => do
    let k ← Memory.zeros size
    let v ← Memory.zeros size
    let (ks, vs) ← buffers size layers
    return (k :: ks, v :: vs)

/-- A cache of zeroed rows, none of which count.  The size of its buffers is taken in a word. -/
def new (layerCount rowWidth capacity : Nat) : Except Error Cache := do
  let (keyBuffers, valueBuffers) ← buffers (Word.wrapMul rowWidth capacity) layerCount
  return { layerCount, rowWidth, capacity, keyBuffers, valueBuffers, length := 0 }

/-- Bytes of the buffers of such a cache; stops at the largest word. -/
def allocationBytes (layerCount rowWidth capacity : Nat) : Nat :=
  [rowWidth, capacity, 2, 4].foldl Word.satMul layerCount

/-- A buffer with `row` written at `position`. -/
def writeRow (position : Nat) (row buffer : Vec) : Vec :=
  let start := position * row.length
  buffer.take start ++ row ++ buffer.drop (start + row.length)

/-- **Stores the rows of one position in one layer.** -/
def write (c : Cache) (layer position : Nat) (key value : Vec) : Except Error Cache :=
  if c.layerCount ≤ layer then
    .error (.config ("cache layer " ++ toString layer ++ " out of " ++ toString c.layerCount))
  else if c.capacity ≤ position then .error (.contextOverflow position 1 c.capacity)
  else if key.length ≠ c.rowWidth ∨ value.length ≠ c.rowWidth then
    .error (.config ("cache row width " ++ toString c.rowWidth ++ " but got key " ++ toString key.length ++
      " / value " ++ toString value.length))
  else .ok { c with
    keyBuffers := c.keyBuffers.modify layer (writeRow position key)
    valueBuffers := c.valueBuffers.modify layer (writeRow position value) }

/-- The keys of the first `n` positions of a layer, row after row. -/
def keys (c : Cache) (layer n : Nat) : Vec := (c.keyBuffers.getD layer []).take (n * c.rowWidth)

/-- The values of the first `n` positions of a layer, row after row. -/
def values (c : Cache) (layer n : Nat) : Vec := (c.valueBuffers.getD layer []).take (n * c.rowWidth)

/-- Lets the first `n` positions count, or all there are. -/
def commit (c : Cache) (n : Nat) : Cache := { c with length := min n c.capacity }

/-- A buffer with `front` written over its front. -/
def writeFront (front buffer : Vec) : Vec := front ++ buffer.drop front.length

/-- **Stores the rows of the first positions of a layer.**  They have to be whole rows that fit. -/
def loadFront (c : Cache) (layer : Nat) (keys values : Vec) : Except Error Cache :=
  if c.layerCount ≤ layer ∨ keys.length ≠ values.length ∨ keys.length % max c.rowWidth 1 ≠ 0 ∨
      (c.keyBuffers.getD layer []).length < keys.length then
    .error (.corruptState ("cache prefix does not fit layer " ++ toString layer))
  else .ok { c with
    keyBuffers := c.keyBuffers.modify layer (writeFront keys)
    valueBuffers := c.valueBuffers.modify layer (writeFront values) }

/-- Lets no position count.  The rows stay, unread. -/
def clear (c : Cache) : Cache := { c with length := 0 }

def isEmpty (c : Cache) : Bool := c.length == 0

def contentBytes (c : Cache) : Nat := c.layerCount * c.length * c.rowWidth * 2 * Memory.singleBytes

/-! ## Slices in place -/

/-- A buffer with some rows written over it from `start` on. -/
def splice (start : Nat) (rows buffer : Vec) : Vec :=
  buffer.take start ++ rows ++ buffer.drop (start + rows.length)

/-- The first `n` numbers of one of the buffers, if it has them. -/
def front? (buffers : List Vec) (layer n : Nat) : Option Vec := do
  let buffer ← buffers[layer]?
  if n ≤ buffer.length then some (buffer.take n) else none

/-- The slice of one of the buffers from `start` to `stop`, replaced by rows of its length. -/
def copy? (buffers : List Vec) (layer start stop : Nat) (rows : Vec) : Option (List Vec) := do
  let buffer ← buffers[layer]?
  if start ≤ stop ∧ stop ≤ buffer.length ∧ rows.length = stop - start then
    some (buffers.set layer (splice start rows buffer))
  else none

def keys? (c : Cache) (layer n : Nat) : Option Vec := front? c.keyBuffers layer (Word.wrapMul n c.rowWidth)

def values? (c : Cache) (layer n : Nat) : Option Vec := front? c.valueBuffers layer (Word.wrapMul n c.rowWidth)

/-- One slice of the keys and then the same one of the values replaced. -/
def copyBoth? (c : Cache) (layer start stop : Nat) (keys values : Vec) : Option Cache := do
  let keyBuffers ← copy? c.keyBuffers layer start stop keys
  let valueBuffers ← copy? c.valueBuffers layer start stop values
  return { c with keyBuffers, valueBuffers }

/-- **What changes a cache.** -/
inductive Call where
  | write (layer position : Nat) (key value : Vec)
  | loadFront (layer : Nat) (keys values : Vec)
  | commit (n : Nat)
  | clear
  deriving DecidableEq, Repr

/-- **A call in place**: what it is answered and the cache it leaves.  A call that passes its checks changes one slice
after the other. -/
def serve? (c : Cache) : Call → Option (Except Error Unit × Cache)
  | .write layer position key value =>
    match c.write layer position key value with
    | .error e => some (.error e, c)
    | .ok _ =>
      let start := Word.wrapMul position c.rowWidth
      (c.copyBoth? layer start (Word.wrapAdd start c.rowWidth) key value).map (.ok (), ·)
  | .loadFront layer keys values =>
    match c.loadFront layer keys values with
    | .error e => some (.error e, c)
    | .ok _ => (c.copyBoth? layer 0 keys.length keys values).map (.ok (), ·)
  | .commit n => some (.ok (), c.commit n)
  | .clear => some (.ok (), c.clear)

end Cache
end CausalLM
