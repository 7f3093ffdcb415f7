import CausalLM.Container.Header
import CausalLM.Vocabulary
import CausalLM.Proofs.Number.Word
import Mathlib.Algebra.Order.BigOperators.Group.List
import Mathlib.Algebra.Order.Ring.Nat
/-!
# Proofs.Container.Footprint — the bounds of a header as exact sums

The bounds on what a header and the tables of a tokenizer hold stop at the largest word.  Here are the same sums without
a stop (`footprint`); a bound is its sum as soon as the sum fits in a word.
-/
namespace CausalLM.Container

namespace Metadata

namespace Value

mutual

/-- What a value counts, its own slot included. -/
def footprint : Value → Nat
  | string s => slotBytes + 2 * s.utf8ByteSize
  | array items => slotBytes + footprints items
  | _ => slotBytes

/-- What the items of an array count. -/
def footprints : List Value → Nat
  | [] => 0
  | v :: items => footprint v + 2 * slotBytes + footprints items

end

mutual

theorem heapBound_eq : ∀ v : Value, footprint v ≤ Word.max64 → heapBound v = footprint v
  | .uint _, _ | .int _, _ | .float _, _ | .bool _, _ | .string _, _ => by simp only [heapBound, footprint]
  | .array items, h => by
    rw [footprint] at h
    rw [heapBound, footprint, heapBoundFrom_eq items slotBytes h]

theorem heapBoundFrom_eq : ∀ (items : List Value) (acc : Nat), acc + footprints items ≤ Word.max64 →
    heapBoundFrom acc items = acc + footprints items
  | [], acc, _ => by rw [heapBoundFrom, footprints, Nat.add_zero]
  | v :: items, acc, h => by
    rw [footprints] at h
    rw [heapBoundFrom, heapBound_eq v (by omega), Word.satAdd_of_le (by omega), heapBoundFrom_eq items _ (by omega),
      footprints]
    omega

end

end Value

/-- What an entry counts. -/
def footprintOf (entry : String × Value) : Nat :=
  4 * entryBytes + 2 * entry.1.utf8ByteSize + entry.2.footprint

def footprint (m : Metadata) : Nat := (m.entries.map footprintOf).sum

theorem heapBound_eq {m : Metadata} (h : m.footprint ≤ Word.max64) : m.heapBound = m.footprint := by
  have heach : ∀ entry ∈ m.entries,
      4 * entryBytes + 2 * entry.1.utf8ByteSize + entry.2.heapBound = footprintOf entry := by
    intro entry hentry
    have hle : footprintOf entry ≤ m.footprint := List.le_sum_of_mem (List.mem_map_of_mem hentry)
    rw [footprintOf] at hle ⊢
    rw [Value.heapBound_eq _ (by omega)]
  rw [heapBound, List.map_congr_left heach, Word.satSum_eq]
  exact Nat.min_eq_left h

end Metadata

namespace Header

/-- What the description of a tensor counts. -/
def footprintOf (t : TensorInfo) : Nat := 8 * infoBytes + 4 * t.name.utf8ByteSize + 8 * t.dims.length

/-- What a header counts, with its metadata and the descriptions of its tensors. -/
def footprint (h : Header) : Nat := baseBytes + h.metadata.footprint + (h.tensors.map footprintOf).sum

theorem heapBound_eq {h : Header} (hfits : h.footprint ≤ Word.max64) : h.heapBound = h.footprint := by
  rw [footprint] at hfits
  have hstart : baseBytes + h.metadata.heapBound = min (baseBytes + h.metadata.footprint) Word.max64 := by
    rw [Metadata.heapBound_eq (by omega), Nat.min_eq_left (by omega)]
  have hfold := Word.foldl_satAdd (h.tensors.map footprintOf) (baseBytes + h.metadata.footprint)
  rw [List.foldl_map, ← hstart, Nat.min_eq_left hfits] at hfold
  exact hfold

end Header
end Container

/-- What the tables of a tokenizer count, from the texts of its tokens and its merges. -/
def Vocabulary.footprint (tokens merges : List String) : Nat :=
  tokens.length * entryBytes + (tokens.map String.utf8ByteSize).sum * 3 +
    (merges.length * entryBytes + (merges.map String.utf8ByteSize).sum * 2)

theorem Vocabulary.heapBound_eq {tokens merges : List String} (h : footprint tokens merges ≤ Word.max64) :
    heapBound tokens.length (tokens.map String.utf8ByteSize).sum merges.length (merges.map String.utf8ByteSize).sum =
      footprint tokens merges := by
  rw [footprint] at h
  rw [heapBound, footprint]
  simp (disch := omega) only [Word.satMul_of_le, Word.satAdd_of_le]

end CausalLM
