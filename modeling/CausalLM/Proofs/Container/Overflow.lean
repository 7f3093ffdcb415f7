import CausalLM.Proofs.Container.Counts
/-!
# Proofs.Container.Overflow — which headers have too many elements

A header is refused for its elements at the first tensor that has too many of them, alone or with the tensors before it
(`TooMany`).  What else a header has to be is said by a reader that counts nothing (`Reader.outline`): what it accepts
is parsed exactly if no tensor has too many elements, and then every count is exact (`counted_parse`).
-/
namespace CausalLM.Container

/-! ## Counting -/

theorem foldlM_checkedMul_eq_none_iff : ∀ {dims : List Nat} {acc : Nat}, acc ≤ Word.max64 →
    (dims.foldlM Word.checkedMul acc = none ↔ ∃ k, Word.max64 < acc * (dims.take k).prod)
  | [], acc, hacc => by
    simp only [List.foldlM_nil, List.take_nil, List.prod_nil, Nat.mul_one]
    refine ⟨fun h => ?_, fun ⟨_, h⟩ => absurd h (Nat.not_lt.2 hacc)⟩
    cases h
  | d :: dims, acc, hacc => by
    have hsucc : ∀ k, acc * ((d :: dims).take (k + 1)).prod = acc * d * (dims.take k).prod := fun k => by
      rw [List.take_succ_cons, List.prod_cons, Nat.mul_assoc]
    rw [List.foldlM_cons, ← Nat.or_exists_add_one]
    simp only [hsucc, List.take_zero, List.prod_nil, Nat.mul_one, Nat.not_lt.2 hacc, false_or]
    by_cases hfits : acc * d ≤ Word.max64
    · rw [Word.checkedMul, Word.checked_eq_some_iff.2 ⟨rfl, hfits⟩]
      exact foldlM_checkedMul_eq_none_iff hfits
    · rw [Word.checkedMul, Word.checked_eq_none_iff.2 (Nat.not_le.1 hfits)]
      exact ⟨fun _ => ⟨0, by rw [List.take_zero, List.prod_nil, Nat.mul_one]; exact Nat.not_le.1 hfits⟩, fun _ => rfl⟩

/-- **A product is refused if it is too large from the left up to some place**, also where a zero stands behind. -/
theorem checkedProduct_eq_none_iff {dims : List Nat} :
    checkedProduct dims = none ↔ ∃ k, Word.max64 < (dims.take k).prod := by
  rw [checkedProduct, foldlM_checkedMul_eq_none_iff (by decide)]
  simp only [Nat.one_mul]

example : checkedProduct [2 ^ 32, 2 ^ 32, 0] = none ∧ checkedProduct [0, 2 ^ 32, 2 ^ 32] = some 0 := by decide

/-- **A tensor has too many elements**, after so many elements of other tensors: a product of its first dimensions, the
running total or its size in binary32 does not fit in a word. -/
inductive TooMany (before : Nat) (t : TensorInfo) : Prop where
  | product (k : Nat) (h : Word.max64 < (t.dims.take k).prod)
  | total (h : Word.max64 < before + t.count)
  | size (h : Word.max64 < (before + t.count) * 4)

theorem totalWith_eq_none_iff {before : Nat} {t : TensorInfo} : totalWith before t.dims = none ↔ TooMany before t := by
  cases hproduct : checkedProduct t.dims with
  | none =>
    obtain ⟨k, hk⟩ := checkedProduct_eq_none_iff.1 hproduct
    exact ⟨fun _ => .product k hk, fun _ => by rw [totalWith, hproduct]; rfl⟩
  | some n =>
    have hn : n = t.count := prod_of_checkedProduct hproduct
    have hnone : totalWith before t.dims = none ↔ Word.max64 < (before + t.count) * 4 := by
      rw [totalWith, hproduct, hn]
      by_cases hsum : before + t.count ≤ Word.max64
      · simp only [Option.bind_eq_bind, Option.bind_some, Word.checkedAdd, Word.checked_eq_some_iff.2 ⟨rfl, hsum⟩]
        rw [← Word.checked_eq_none_iff, Word.checkedMul]
        cases Word.checked ((before + t.count) * 4) <;> simp
      · simp only [Option.bind_eq_bind, Option.bind_some, Word.checkedAdd,
          Word.checked_eq_none_iff.2 (Nat.not_le.1 hsum), Option.bind_none, true_iff]
        omega
    rw [hnone]
    refine ⟨.size, fun h => ?_⟩
    cases h with
    | product k hk =>
      rw [checkedProduct_eq_none_iff.2 ⟨k, hk⟩] at hproduct
      cases hproduct
    | total h => omega
    | size h => exact h

/-- No tensor has too many elements. -/
def Countable (before : Nat) (infos : List TensorInfo) : Prop :=
  ∀ front t back, infos = front ++ t :: back → ¬TooMany (before + (front.map TensorInfo.count).sum) t

/-- **The tensor at which counting stops**: the first one that has too many elements. -/
def StopsAt (before : Nat) (infos : List TensorInfo) (t : TensorInfo) : Prop :=
  ∃ front back, infos = front ++ t :: back ∧ Countable before front ∧
    TooMany (before + (front.map TensorInfo.count).sum) t

section
variable {before : Nat} {t u : TensorInfo} {infos : List TensorInfo}

theorem countable_nil (before : Nat) : Countable before [] := fun front t back h => by simp at h

theorem add_sum_cons (before : Nat) (t : TensorInfo) (front : List TensorInfo) :
    before + ((t :: front).map TensorInfo.count).sum = before + t.count + (front.map TensorInfo.count).sum := by
  rw [List.map_cons, List.sum_cons, Nat.add_assoc]

theorem countable_cons (ht : ¬TooMany before t) (h : Countable (before + t.count) infos) :
    Countable before (t :: infos) := by
  intro front u back hsplit
  cases front with
  | nil =>
    cases hsplit
    exact ht
  | cons t' front =>
    cases hsplit
    rw [add_sum_cons]
    exact h front u back rfl

theorem stopsAt_cons (ht : ¬TooMany before t) (h : StopsAt (before + t.count) infos u) :
    StopsAt before (t :: infos) u := by
  obtain ⟨front, back, rfl, hfront, hu⟩ := h
  refine ⟨t :: front, back, rfl, countable_cons ht hfront, ?_⟩
  rwa [add_sum_cons]

end

/-- What a header with too many elements is refused for. -/
def overflow (t : TensorInfo) : Error :=
  .formatMismatch ("tensor '" ++ t.name ++ "' dimensions " ++ showDims t.dims ++ " overflow")

namespace Reader

variable {s r : Bytes} {n before : Nat} {infos : List TensorInfo}

/-! ## Headers that are not counted -/

/-- A tensor description, its elements not counted. -/
def description : Reader TensorInfo := do
  let name ← string
  let n ← word32
  if n = 0 ∨ maxDims < n then refuse ("tensor '" ++ name ++ "' has " ++ toString n ++ " dimensions")
  else do
    let dims ← repeated word64 n
    let id ← word32
    match ElementType.ofId? id with
    | none => refuse ("unknown ggml type " ++ toString id)
    | some type => do
      let offset ← word64
      return { name, dims, type, offset }

/-- **The header of a file, its elements not counted.** -/
def outline : Reader (Nat × List (String × Metadata.Value) × List TensorInfo) := headerWith (repeated description)

theorem tensor_eq (before : Nat) : tensor before = do
    let t ← description
    match totalWith before t.dims with
    | none => fun _ => .error (overflow t)
    | some total => return (t, total) := by
  rw [tensor, description, bind_assoc]
  congr
  funext name
  rw [bind_assoc]
  congr
  funext n
  split
  · rfl
  simp only [bind_assoc]
  congr
  funext dims
  congr
  funext id
  cases ElementType.ofId? id with
  | none => rfl
  | some type =>
    simp only [bind_assoc, pure_bind, overflow]
    rfl

/-! ## Counted or not -/

/-- **Counting tensor descriptions** gives all of them, or stops at the first that has too many elements. -/
theorem tensors_of_repeated : ∀ {n : Nat} (before : Nat) {s r : Bytes} {infos : List TensorInfo},
    repeated description n s = .ok (infos, r) →
      (Countable before infos ∧ tensors n before s = .ok (infos, r)) ∨
        ∃ t, StopsAt before infos t ∧ tensors n before s = .error (overflow t)
  | 0, before, s, r, infos, h => by
    cases h
    exact .inl ⟨countable_nil before, rfl⟩
  | n + 1, before, s, r, infos, h => by
    obtain ⟨t, u, ht, h⟩ := bind_eq_ok.1 h
    obtain ⟨rest, v, hrest, h⟩ := bind_eq_ok.1 h
    cases h
    cases htotal : totalWith before t.dims with
    | none =>
      have hstop : tensor before s = .error (overflow t) := by rw [tensor_eq, bind_of_ok ht, htotal]
      exact .inr ⟨t, ⟨[], rest, rfl, countable_nil before, totalWith_eq_none_iff.1 htotal⟩, bind_of_error hstop⟩
    | some total =>
      have hread : tensor before s = .ok ((t, total), u) := by
        rw [tensor_eq, bind_of_ok ht, htotal]
        rfl
      have hfits : ¬TooMany before t := fun hmany => by
        rw [totalWith_eq_none_iff.2 hmany] at htotal
        cases htotal
      have hsum : total = before + t.count := (of_totalWith htotal).1
      rw [tensors, bind_of_ok hread, hsum]
      obtain ⟨hcount, htensors⟩ | ⟨w, hw, hstop⟩ := tensors_of_repeated (before + t.count) hrest
      · exact .inl ⟨countable_cons hfits hcount, bind_of_ok htensors⟩
      · exact .inr ⟨w, stopsAt_cons hfits hw, bind_of_error hstop⟩

/-- Tensor descriptions that are counted can be read without counting. -/
theorem repeated_of_tensors : ∀ {n before : Nat} {s r : Bytes} {infos : List TensorInfo},
    tensors n before s = .ok (infos, r) → repeated description n s = .ok (infos, r)
  | 0, _, _, _, _, h => h
  | n + 1, before, s, r, infos, h => by
    obtain ⟨⟨t, total⟩, u, ht, h⟩ := bind_eq_ok.1 h
    obtain ⟨rest, v, hrest, h⟩ := bind_eq_ok.1 h
    cases h
    rw [tensor_eq] at ht
    obtain ⟨t', u', hdescription, ht⟩ := bind_eq_ok.1 ht
    cases htotal : totalWith before t'.dims with
    | none =>
      rw [htotal] at ht
      cases ht
    | some total' =>
      rw [htotal] at ht
      cases ht
      rw [repeated, bind_of_ok hdescription, bind_of_ok (repeated_of_tensors hrest)]
      rfl

end Reader

/-! ## The header -/

/-- **The counts of a header are exact**, none of them stopped at the largest word. -/
structure Header.Exact (h : Header) : Prop where
  elements : ∀ t ∈ h.tensors, t.elements = t.dims.prod
  total : h.elements = (h.tensors.map fun t => t.dims.prod).sum
  fits : 4 * (h.tensors.map fun t => t.dims.prod).sum ≤ Word.max64
  bytes : ∀ t ∈ h.tensors, t.type = .f32 → t.bytes = t.dims.prod * 4
  bytes_half : ∀ t ∈ h.tensors, t.type = .f16 ∨ t.type = .bf16 → t.bytes = t.dims.prod * 2

namespace Header

variable {file : Bytes} {h : Header}

theorem exact_counts_of_parse (hparse : parse file = .ok h) : h.Exact := by
  obtain ⟨helements, htotal⟩ := exact_of_parse hparse
  have hbytes : ∀ t ∈ h.tensors, ∀ size ≤ 4, t.type.blockSize = 1 → t.type.blockBytes = size →
      t.bytes = t.dims.prod * size := by
    intro t ht size hsize hblock hwidth
    have hfits := count_le_of_parse hparse ht
    rw [TensorInfo.bytes, ElementType.bytesFor, helements t ht, hblock, hwidth, Word.ceilDiv, Nat.add_sub_cancel,
      Nat.div_one]
    exact Word.satMul_of_le (Nat.le_trans (Nat.mul_le_mul_left _ hsize) hfits)
  refine ⟨helements, htotal, ?_, fun t ht htype => ?_, fun t ht htype => ?_⟩
  · rw [Nat.mul_comm]
    exact count_of_parse hparse
  · exact hbytes t ht 4 (by decide) (by rw [htype]; rfl) (by rw [htype]; rfl)
  · refine hbytes t ht 2 (by decide) ?_ ?_
    · rcases htype with htype | htype <;> rw [htype] <;> rfl
    · rcases htype with htype | htype <;> rw [htype] <;> rfl

/-- **What the parser accepts is counted exactly, and what it refuses for its elements has too many.**  A header that is
well formed but for its counts is parsed, or it has a first tensor at which a product of dimensions, the running total
or its size in binary32 does not fit in a word, and is refused for that tensor. -/
theorem counted_parse (file : Bytes) :
    (∀ h, parse file = .ok h →
      h.Exact ∧ ∃ pairs r, Reader.outline file = .ok ((h.version, pairs, h.tensors), r)) ∧
      ∀ version pairs infos r, Reader.outline file = .ok ((version, pairs, infos), r) →
        (Countable 0 infos ∧ ∃ h, parse file = .ok h ∧ h.version = version ∧
          h.metadata = Metadata.empty.withPairs pairs ∧ h.tensors = infos) ∨
        ∃ t, StopsAt 0 infos t ∧ parse file = .error (overflow t) := by
  constructor
  · intro h hparse
    obtain ⟨size, hread⟩ := parse_eq_ok_iff.1 hparse
    obtain ⟨pairs, r, hheader, -⟩ := Reader.exists_of_read hread
    obtain ⟨hversion, tensorCount, pairCount, u, t, hlead, hpairs, htensors⟩ := Reader.of_header_eq_ok hheader
    refine ⟨exact_counts_of_parse hparse, pairs, r, ?_⟩
    rw [Reader.outline, Reader.headerWith_of_front hversion hlead hpairs,
      Reader.bind_of_ok (Reader.repeated_of_tensors htensors)]
    rfl
  · intro version pairs infos r houtline
    obtain ⟨hversion, tensorCount, pairCount, u, t, hlead, hpairs, hinfos⟩ := Reader.of_headerWith_eq_ok houtline
    have hheader : Reader.header file = (do return (version, pairs, ← Reader.tensors tensorCount 0) : Reader _) t :=
      Reader.headerWith_of_front hversion hlead hpairs
    obtain ⟨hcount, htensors⟩ | ⟨info, hinfo, hstop⟩ := Reader.tensors_of_repeated 0 hinfos
    · exact .inl ⟨hcount, _, by rw [parse, Reader.read_eq, hheader, Reader.bind_of_ok htensors]; rfl, rfl, rfl, rfl⟩
    · exact .inr ⟨info, hinfo, by rw [parse, Reader.read_eq, hheader, Reader.bind_of_error hstop]; rfl⟩

end Header
end CausalLM.Container
