import CausalLM.Proofs.Sampling
import Mathlib.Data.List.Destutter
/-!
# Proofs.Sampling.Recency — which tokens are recent, not how often

The penalty reads the recent tokens as a set: a draw is the same for two lists with the same tokens of the vocabulary
in them, in whatever order and however often (`draw_eq_of_seen_iff`).  Beside the penalty of all candidates at once
stands the one in place (`Arithmetic.penaliseInPlace`), which sorts the recent tokens, drops what is repeated, and goes
from one candidate to the next; as no place comes twice, it gives the same (`penaliseInPlace_eq`).
-/
namespace CausalLM.Sampling

/-- A recent token has this index. -/
def Seen (recent : List Token) (i : Nat) : Prop := ∃ t ∈ recent, t.index? = some i

/-- The indices of the recent tokens, in order and each once. -/
def seenPlaces (recent : List Token) : List Nat :=
  ((recent.filterMap Token.index?).mergeSort fun i j => decide (i ≤ j)).destutter (· ≠ ·)

namespace Arithmetic

variable (a : Arithmetic)

/-- The candidates with the one at a place penalised, if there is one. -/
def penaliseAt (p : Sampling) (l : List Candidate) (place : Nat) : List Candidate :=
  l.modify place fun c => (c.1, a.penalise p.penalty c.2)

/-- **The penalty in place**: one recent token after the other, at the place of its index. -/
def penaliseInPlace (p : Sampling) (recent : List Token) (l : List Candidate) : List Candidate :=
  if p.penalty.eq .one || recent.isEmpty then l else (seenPlaces recent).foldl (a.penaliseAt p) l

end Arithmetic

variable {a : Arithmetic} {p : Sampling} {logits : Vec} {recent recent' : List Token} {g : Generator}

theorem contains_index?_iff (recent : List Token) (i : Nat) :
    (recent.filterMap Token.index?).contains i = true ↔ Seen recent i := by
  rw [List.contains_iff_mem, List.mem_filterMap]
  rfl

/-! ## All candidates at once -/

/-- Where no token is recent none is penalised, so that case needs no way out of its own. -/
theorem applyPenalty_of_ne_one (h : p.penalty.eq .one = false) (recent : List Token) (l : List Candidate) :
    a.applyPenalty p recent l = l.map fun c =>
      if (recent.filterMap Token.index?).contains c.1 then (c.1, a.penalise p.penalty c.2) else c := by
  rw [Arithmetic.applyPenalty, h, Bool.false_or]
  cases recent with
  | nil => exact (List.map_id l).symm
  | cons t ts => rfl

theorem applyPenalty_of_one (h : p.penalty.eq .one = true) (recent : List Token) (l : List Candidate) :
    a.applyPenalty p recent l = l := by
  rw [Arithmetic.applyPenalty, h, Bool.true_or, if_pos rfl]

/-- **The candidates are the same for the same set of recent tokens.** -/
theorem candidates_congr (h : ∀ i < logits.length, Seen recent i ↔ Seen recent' i) :
    a.candidates p logits recent = a.candidates p logits recent' := by
  unfold Arithmetic.candidates
  cases hone : p.penalty.eq .one with
  | true => rw [applyPenalty_of_one hone, applyPenalty_of_one hone]
  | false =>
    rw [applyPenalty_of_ne_one hone, applyPenalty_of_ne_one hone]
    refine List.map_congr_left fun c hc => ?_
    have hlt : c.1 < logits.length := List.mem_range.1 (List.of_mem_zip hc).1
    have hsame : (recent.filterMap Token.index?).contains c.1 = (recent'.filterMap Token.index?).contains c.1 := by
      rw [Bool.eq_iff_iff, contains_index?_iff, contains_index?_iff, h c.1 hlt]
    rw [hsame]

/-- Of the recent tokens a draw reads the candidates they make. -/
theorem draw?_congr (h : a.candidates p logits recent = a.candidates p logits recent') (g : Generator) :
    a.draw? p logits recent g = a.draw? p logits recent' g := by
  unfold Arithmetic.draw? Arithmetic.ranked Arithmetic.scaled
  rw [h]

/-! ## One place after the other -/

/-- Dropping what is repeated in a row drops no index altogether. -/
theorem mem_destutter' (l : List Nat) : ∀ i j : Nat, j ∈ l.destutter' (· ≠ ·) i ↔ j = i ∨ j ∈ l := by
  induction l with
  | nil => simp
  | cons k l ih =>
    intro i j
    by_cases hik : i = k
    · subst hik
      rw [List.destutter'_cons_neg _ (not_not.2 rfl), ih, List.mem_cons, ← or_assoc, or_self]
    · rw [List.destutter'_cons_pos _ hik, List.mem_cons, ih, List.mem_cons]

/-- In a sorted list what is repeated stands in a row. -/
theorem pairwise_destutter' (l : List Nat) : ∀ i : Nat, (i :: l).Pairwise (· ≤ ·) →
    (l.destutter' (· ≠ ·) i).Pairwise (· < ·) := by
  induction l with
  | nil => simp
  | cons k l ih =>
    intro i h
    obtain ⟨hi, hk⟩ := List.pairwise_cons.1 h
    by_cases hik : i = k
    · subst hik
      rw [List.destutter'_cons_neg _ (not_not.2 rfl)]
      exact ih i hk
    · rw [List.destutter'_cons_pos _ hik]
      refine List.pairwise_cons.2 ⟨fun j hj => ?_, ih k hk⟩
      have hlt : i < k := Nat.lt_of_le_of_ne (hi k List.mem_cons_self) hik
      rcases (mem_destutter' l k j).1 hj with rfl | hj
      · exact hlt
      · exact Nat.lt_of_lt_of_le hlt ((List.pairwise_cons.1 hk).1 j hj)

theorem mem_seenPlaces (recent : List Token) (i : Nat) : i ∈ seenPlaces recent ↔ Seen recent i := by
  rw [← contains_index?_iff, List.contains_iff_mem, seenPlaces]
  have hsort : i ∈ (recent.filterMap Token.index?).mergeSort (fun i j => decide (i ≤ j)) ↔
      i ∈ recent.filterMap Token.index? := List.mem_mergeSort
  rw [← hsort]
  cases (recent.filterMap Token.index?).mergeSort fun i j => decide (i ≤ j) with
  | nil => rfl
  | cons j l => rw [List.destutter_cons', mem_destutter', List.mem_cons]

theorem nodup_seenPlaces (recent : List Token) : (seenPlaces recent).Nodup := by
  have hsorted : ((recent.filterMap Token.index?).mergeSort fun i j => decide (i ≤ j)).Pairwise (· ≤ ·) := by
    refine (@List.pairwise_mergeSort Nat (fun i j => decide (i ≤ j)) ?_ ?_ _).imp fun h => of_decide_eq_true h
    · simp only [decide_eq_true_eq]
      omega
    · simp only [Bool.or_eq_true, decide_eq_true_eq]
      omega
  rw [seenPlaces]
  cases hplaces : (recent.filterMap Token.index?).mergeSort fun i j => decide (i ≤ j) with
  | nil => exact List.nodup_nil
  | cons i l =>
    rw [hplaces] at hsorted
    rw [List.destutter_cons']
    exact (pairwise_destutter' l i hsorted).imp Nat.ne_of_lt

/-- **No place comes twice, so none is penalised twice.** -/
theorem getElem?_foldl_penaliseAt (i : Nat) : ∀ {places : List Nat}, places.Nodup → ∀ l : List Candidate,
    (places.foldl (a.penaliseAt p) l)[i]? =
      if i ∈ places then l[i]?.map fun c => (c.1, a.penalise p.penalty c.2) else l[i]?
  | [], _, l => rfl
  | place :: places, h, l => by
    obtain ⟨hplace, hplaces⟩ := List.nodup_cons.1 h
    rw [List.foldl_cons, getElem?_foldl_penaliseAt i hplaces, Arithmetic.penaliseAt, List.getElem?_modify]
    by_cases hi : place = i
    · subst hi
      rw [if_neg hplace, if_pos List.mem_cons_self]
      simp
    · have hne : i ≠ place := fun h => hi h.symm
      simp [hi, hne]

/-- **Penalising one place after the other gives the same as all candidates at once.** -/
theorem penaliseInPlace_eq (p : Sampling) (logits : Vec) (recent : List Token) :
    a.penaliseInPlace p recent ((List.range logits.length).zip logits) = a.candidates p logits recent := by
  unfold Arithmetic.candidates Arithmetic.penaliseInPlace
  cases hone : p.penalty.eq .one with
  | true => rw [applyPenalty_of_one hone, Bool.true_or, if_pos rfl]
  | false =>
    cases hrecent : recent.isEmpty with
    | true =>
      rw [Arithmetic.applyPenalty, hone, hrecent]
      rfl
    | false =>
      rw [applyPenalty_of_ne_one hone, Bool.false_or, if_neg Bool.false_ne_true]
      refine List.ext_getElem? fun i => ?_
      rw [getElem?_foldl_penaliseAt i (nodup_seenPlaces recent), List.getElem?_map]
      cases hc : ((List.range logits.length).zip logits)[i]? with
      | none => simp
      | some c =>
        -- the candidate at a place has the index of the place
        have hindex : c.1 = i := by
          obtain ⟨hrange, -⟩ := List.getElem?_zip_eq_some.1 hc
          obtain ⟨hlt, heq⟩ := List.getElem?_eq_some_iff.1 hrange
          rw [← heq, List.getElem_range]
        have hseen : (recent.filterMap Token.index?).contains c.1 = true ↔ i ∈ seenPlaces recent := by
          rw [contains_index?_iff, mem_seenPlaces, hindex]
        rw [Option.map_some, Option.map_some, ← apply_ite some]
        exact congrArg some (if_congr hseen.symm rfl rfl)

/-! ## Two windows -/

/-- **A draw reads the recent tokens as a set.**  For two lists with the same tokens of the vocabulary in them, in any
order, any number of times and beside any other numbers, it gives the same and leaves the same generator, also with any
arithmetic in place of the machine's.  That the candidates are penalised one after the other makes no difference: what
is sorted and rid of repetitions gives what all at once give. -/
theorem draw_eq_of_seen_iff (p : Sampling) (logits : Vec) (recent recent' : List Token) (g : Generator)
    (h : ∀ i < logits.length, Seen recent i ↔ Seen recent' i) :
    p.draw logits recent g = p.draw logits recent' g ∧
    ∀ a : Arithmetic, a.draw? p logits recent g = a.draw? p logits recent' g ∧
      a.penaliseInPlace p recent ((List.range logits.length).zip logits) = a.candidates p logits recent ∧
      a.penaliseInPlace p recent' ((List.range logits.length).zip logits) = a.candidates p logits recent := by
  refine ⟨?_, fun a => ⟨draw?_congr (candidates_congr h) g, penaliseInPlace_eq p logits recent, ?_⟩⟩
  · have hmachine := draw?_congr (a := .machine) (p := p) (candidates_congr h) g
    rw [draw?_machine, draw?_machine] at hmachine
    exact Option.some.inj hmachine
  · rw [penaliseInPlace_eq, candidates_congr h]

/-- A token that came twice, beside one that is none and one behind the vocabulary, and the same token once. -/
theorem draw_eq_of_seen_iff_repeated :
    (∀ i < 2, Seen [⟨1⟩, ⟨-1⟩, ⟨1⟩, ⟨7⟩] i ↔ Seen [⟨1⟩] i) ∧
      default.draw [.one, .two] [⟨1⟩, ⟨-1⟩, ⟨1⟩, ⟨7⟩] ⟨3⟩ = default.draw [.one, .two] [⟨1⟩] ⟨3⟩ := by
  have h : ∀ i < ([.one, .two] : Vec).length, Seen [⟨1⟩, ⟨-1⟩, ⟨1⟩, ⟨7⟩] i ↔ Seen [⟨1⟩] i := by
    intro i hi
    rw [← contains_index?_iff, ← contains_index?_iff]
    revert i
    decide
  exact ⟨h, (draw_eq_of_seen_iff default [.one, .two] _ _ ⟨3⟩ h).1⟩

end CausalLM.Sampling
