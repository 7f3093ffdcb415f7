import CausalLM.Proofs.Container.Reader
import CausalLM.Proofs.Number.Word
import Mathlib.Algebra.Order.BigOperators.Group.List
import Mathlib.Algebra.Order.Ring.Nat
/-!
# Proofs.Container.Counts — the elements of a parsed header

While a header is read the elements of its tensors are counted exactly, and the count refuses what would not fit.  So
the counts that stop at the largest word never do so on a parsed header: the elements of each tensor are the product of
its dimensions, and those of all of them their sum, also in bytes of binary32 (`exact_of_parse`).
-/
namespace CausalLM.Container

/-- The exact number of elements. -/
def TensorInfo.count (t : TensorInfo) : Nat := t.dims.prod

theorem prod_of_checkedProduct {dims : List Nat} {n : Nat} (h : checkedProduct dims = some n) : n = dims.prod := by
  -- the induction needs the fold from any number on
  suffices hfold : ∀ (dims : List Nat) (acc : Nat), dims.foldlM Word.checkedMul acc = some n → n = acc * dims.prod by
    have := hfold dims 1 h
    rwa [Nat.one_mul] at this
  intro dims
  induction dims with
  | nil =>
    intro acc h
    cases h
    rw [List.prod_nil, Nat.mul_one]
  | cons d dims ih =>
    intro acc h
    rw [List.foldlM_cons] at h
    obtain ⟨m, hm, h⟩ := Option.bind_eq_some_iff.1 h
    obtain ⟨rfl, -⟩ := Word.checked_eq_some_iff.1 hm
    rw [ih _ h, List.prod_cons, Nat.mul_assoc]

theorem of_totalWith {total total' : Nat} {dims : List Nat} (h : totalWith total dims = some total') :
    total' = total + dims.prod ∧ total' * 4 ≤ Word.max64 := by
  obtain ⟨n, hn, h⟩ := Option.bind_eq_some_iff.1 h
  obtain ⟨sum, hsum, h⟩ := Option.bind_eq_some_iff.1 h
  obtain ⟨size, hsize, h⟩ := Option.bind_eq_some_iff.1 h
  cases h
  obtain ⟨rfl, -⟩ := Word.checked_eq_some_iff.1 hsum
  obtain ⟨rfl, hfits⟩ := Word.checked_eq_some_iff.1 hsize
  exact ⟨by rw [prod_of_checkedProduct hn], hfits⟩

namespace Reader

theorem total_of_tensor {total total' : Nat} {s r : Bytes} {info : TensorInfo}
    (h : tensor total s = .ok ((info, total'), r)) : total' = total + info.count ∧ total' * 4 ≤ Word.max64 := by
  obtain ⟨name, s₁, -, h⟩ := bind_eq_ok.1 h
  obtain ⟨n, s₂, -, h⟩ := bind_eq_ok.1 h
  split at h
  · cases h
  obtain ⟨dims, s₃, -, h⟩ := bind_eq_ok.1 h
  obtain ⟨id, s₄, -, h⟩ := bind_eq_ok.1 h
  cases htype : ElementType.ofId? id with
  | none =>
    rw [htype] at h
    cases h
  | some type =>
    rw [htype] at h
    obtain ⟨offset, s₅, -, h⟩ := bind_eq_ok.1 h
    cases htotal : totalWith total dims with
    | none =>
      rw [htotal] at h
      cases h
    | some total' =>
      rw [htotal] at h
      cases h
      exact of_totalWith htotal

theorem total_of_tensors : ∀ {n total : Nat} {s r : Bytes} {infos : List TensorInfo},
    tensors n total s = .ok (infos, r) → total * 4 ≤ Word.max64 →
      (total + (infos.map TensorInfo.count).sum) * 4 ≤ Word.max64
  | 0, total, s, r, infos, h, htotal => by
    cases h
    exact htotal
  | n + 1, total, s, r, infos, h, htotal => by
    obtain ⟨⟨info, total'⟩, t, hinfo, h⟩ := bind_eq_ok.1 h
    obtain ⟨rest, u, hrest, h⟩ := bind_eq_ok.1 h
    cases h
    obtain ⟨hsum, hfits⟩ := total_of_tensor hinfo
    have hall := total_of_tensors hrest hfits
    rw [hsum, Nat.add_assoc] at hall
    rwa [List.map_cons, List.sum_cons]

end Reader

namespace Header

variable {file : Bytes} {h : Header}

/-- **All elements of a parsed header fit in a word of bytes.** -/
theorem count_of_parse (hparse : parse file = .ok h) : (h.tensors.map TensorInfo.count).sum * 4 ≤ Word.max64 := by
  obtain ⟨-, tensorCount, pairCount, pairs, u, t, r, -, -, htensors, -⟩ := exists_of_parse hparse
  have htotal := Reader.total_of_tensors htensors (by decide)
  rwa [Nat.zero_add] at htotal

theorem count_le_of_parse (hparse : parse file = .ok h) {t : TensorInfo} (ht : t ∈ h.tensors) :
    t.count * 4 ≤ Word.max64 := by
  have hsum := count_of_parse hparse
  have hle : t.count ≤ (h.tensors.map TensorInfo.count).sum := List.le_sum_of_mem (List.mem_map_of_mem ht)
  omega

/-- **The counts that stop at the largest word are exact.** -/
theorem exact_of_parse (hparse : parse file = .ok h) :
    (∀ t ∈ h.tensors, t.elements = t.count) ∧ h.elements = (h.tensors.map TensorInfo.count).sum := by
  have hsum := count_of_parse hparse
  have heach : ∀ t ∈ h.tensors, t.elements = t.count := fun t ht => by
    have hle := count_le_of_parse hparse ht
    rw [TensorInfo.elements, Word.satProd_eq, ← List.prod_eq_foldl]
    exact Nat.min_eq_left (by rw [← TensorInfo.count]; omega)
  refine ⟨heach, ?_⟩
  rw [elements, Word.satSum_eq, List.map_congr_left heach, Nat.min_eq_left (by omega)]

end Header
end CausalLM.Container
