import CausalLM.Container.Draft
import CausalLM.Proofs.Number.Word
/-!
# Proofs.Container.Layout — where the data of a draft's tensors stands

Offsets are given out in one pass and the data is written in another.  An offset is never before the end of the data
in front of it (`pairwise_placed`), so the zeros written up to it never have a negative number
(`bodyChecked_placed`, `bytesChecked_eq`), and the data stands at its offset (`data_in_body`).
-/
namespace CausalLM

namespace Container.Draft

theorem le_roundUp_alignment (n : Nat) : n ≤ Word.roundUp alignment n := Word.le_roundUp (by decide) n

theorem length_padded (b : Bytes) : (padded b).length = Word.roundUp alignment b.length := by
  have := le_roundUp_alignment b.length
  rw [padded, List.length_append, List.length_replicate]
  omega

variable {t : Tensor} {offset written start : Nat} {ts : List Tensor}

/-! ## Offsets -/

theorem map_fst_placed : ∀ (offset : Nat) (ts : List Tensor), (placed offset ts).map Prod.fst = ts
  | _, [] => rfl
  | offset, t :: ts => by rw [placed, List.map_cons, map_fst_placed]

theorem mem_of_mem_placed {p : Tensor × Nat} (h : p ∈ placed offset ts) : p.1 ∈ ts := by
  rw [← map_fst_placed offset ts]
  exact List.mem_map_of_mem h

theorem le_of_mem_placed : ∀ {offset : Nat} {ts : List Tensor}, (t, start) ∈ placed offset ts → offset ≤ start
  | _, [], h => by cases h
  | offset, u :: ts, h => by
    rw [placed, List.mem_cons] at h
    rcases h with h | h
    · cases h
      exact Nat.le_refl _
    · have := le_of_mem_placed h
      have := le_roundUp_alignment (offset + u.data.length)
      omega

/-- **Every offset is a multiple of the alignment**, if the first one is. -/
theorem mod_of_mem_placed : ∀ {offset : Nat} {ts : List Tensor}, offset % alignment = 0 →
    (t, start) ∈ placed offset ts → start % alignment = 0
  | _, [], _, h => by cases h
  | offset, u :: ts, hoffset, h => by
    rw [placed, List.mem_cons] at h
    rcases h with h | h
    · cases h
      exact hoffset
    · exact mod_of_mem_placed (Word.roundUp_mod _ _) h

/-- **The data of every tensor ends before that of the next begins.** -/
theorem pairwise_placed : ∀ (offset : Nat) (ts : List Tensor),
    (placed offset ts).Pairwise fun a b => a.2 + a.1.data.length ≤ b.2
  | _, [] => .nil
  | offset, t :: ts => by
    rw [placed, List.pairwise_cons]
    refine ⟨fun p hp => ?_, pairwise_placed _ ts⟩
    exact Nat.le_trans (le_roundUp_alignment _) (le_of_mem_placed hp)

/-! ## Data -/

/-- **The data of a tensor stands at its offset**, counted from what was written before. -/
theorem data_in_body : ∀ {written offset : Nat} {ts : List Tensor}, written ≤ offset →
    (t, start) ∈ placed offset ts →
    ((body written (placed offset ts)).drop (start - written)).take t.data.length = t.data
  | _, _, [], _, h => by cases h
  | written, offset, u :: ts, hle, h => by
    rw [placed] at h ⊢
    rw [body]
    rcases List.mem_cons.1 h with h | h
    · cases h
      rw [List.append_assoc, List.drop_left' (List.length_replicate ..), List.take_left' rfl]
    · -- what stands in front of the later tensors is the zeros and the data of this one
      have hend := Nat.le_trans (le_roundUp_alignment (offset + u.data.length)) (le_of_mem_placed h)
      have hfront : start - written = (List.replicate (offset - written) 0 ++ u.data).length +
          (start - (offset + u.data.length)) := by
        rw [List.length_append, List.length_replicate]
        omega
      rw [hfront, List.drop_length_add_append]
      exact data_in_body (le_roundUp_alignment _) h

theorem end_le_of_mem_placed : ∀ {written offset : Nat} {ts : List Tensor}, written ≤ offset →
    (t, start) ∈ placed offset ts → start + t.data.length ≤ written + (body written (placed offset ts)).length
  | _, _, [], _, h => by cases h
  | written, offset, u :: ts, hle, h => by
    rw [placed] at h ⊢
    rw [body, List.length_append, List.length_append, List.length_replicate]
    rcases List.mem_cons.1 h with h | h
    · cases h
      omega
    · have := end_le_of_mem_placed (le_roundUp_alignment (offset + u.data.length)) h
      omega

/-! ## Writing with checks -/

/-- The zeros from one position to another; none if that is further back. -/
def zerosTo? (position target : Nat) : Option Bytes :=
  if position ≤ target then some (List.replicate (target - position) 0) else none

/-- Like `body`, but gives up where an offset is further back than what is written. -/
def bodyChecked (written : Nat) : List (Tensor × Nat) → Option Bytes
  | [] => some []
  | (t, offset) :: rest => do
    let zeros ← zerosTo? written offset
    let more ← bodyChecked (offset + t.data.length) rest
    return zeros ++ t.data ++ more

/-- Like `bytes`, but gives up where a position would have to go back. -/
def bytesChecked (d : Draft) : Option Bytes := do
  let zeros ← zerosTo? d.header.length (Word.roundUp alignment d.header.length)
  let data ← bodyChecked 0 (placed 0 d.tensors)
  return d.header ++ zeros ++ data

theorem bodyChecked_placed : ∀ {written offset : Nat} {ts : List Tensor}, written ≤ offset →
    bodyChecked written (placed offset ts) = some (body written (placed offset ts))
  | _, _, [], _ => rfl
  | written, offset, t :: ts, h => by
    rw [placed, bodyChecked, zerosTo?, if_pos h, bodyChecked_placed (le_roundUp_alignment _)]
    rfl

/-- **No position ever goes back** while a draft is written. -/
theorem bytesChecked_eq (d : Draft) : d.bytesChecked = some d.bytes := by
  rw [bytesChecked, zerosTo?, if_pos (le_roundUp_alignment _), bodyChecked_placed (Nat.le_refl 0)]
  rfl

end Container.Draft
end CausalLM
