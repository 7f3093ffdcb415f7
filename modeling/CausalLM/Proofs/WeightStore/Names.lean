import CausalLM.Proofs.WeightStore
/-!
# Proofs.WeightStore.Names — one name, two look-ups

A header answers to a name with the first description that has it, a store with the last tensor that was put under it.
Loading is putting the tensors in one after the other (`exists_loaded`), so both know the same names, and they agree on
every name that stands once (`get?_and_tensor?_of_load`).
-/
namespace CausalLM.WeightStore

open Container (Header TensorInfo Draft)

variable {file : Bytes} {offset : Nat} {header : Header} {s : WeightStore}

/-- The bytes of the tensors in the store. -/
def storedBytes (s : WeightStore) : Nat := (s.tensors.map fun p => p.2.bytes).sum

/-- The last description of a name is that of the tensor under it. -/
theorem rel_last {loaded : List (TensorInfo × Tensor)} (hholds : ∀ p ∈ loaded, Holds file offset p.1 p.2)
    (htensors : s.tensors = Dictionary.insertAll [] (loaded.map fun p => (p.1.name, p.2))) (name : String) :
    Option.Rel (Holds file offset) ((loaded.map Prod.fst).reverse.find? (·.name == name)) (s.get? name) := by
  obtain ⟨hget, hlast⟩ := get?_insertAll_loaded loaded [] name
  rw [get?, htensors, hget, hlast]
  cases hfind : loaded.reverse.find? (·.1.name == name) with
  | none => exact .none
  | some p => exact .some (hholds p (List.mem_reverse.1 (List.mem_of_find?_eq_some hfind)))

theorem exists_of_rel {α β : Type} {r : α → β → Prop} {x : Option α} {y : Option β} (h : Option.Rel r x y) :
    x.isSome = y.isSome ∧ ∀ a b, x = some a → y = some b → r a b := by
  cases h with
  | none => exact ⟨rfl, fun _ _ ha => by cases ha⟩
  | some h =>
    refine ⟨rfl, fun a b ha hb => ?_⟩
    cases ha
    cases hb
    exact h

theorem isSome_tensor? (header : Header) (name : String) :
    (header.tensors.reverse.find? (·.name == name)).isSome = (header.tensor? name).isSome := by
  rw [Header.tensor?, Bool.eq_iff_iff, List.find?_isSome, List.find?_isSome]
  simp only [List.mem_reverse]

/-- **What a header and a store say of a name.**  They know the same names, and the store as many tensors as there are
names.  A tensor is the last one described under its name, so it is that of the look-up in the header wherever there is
one description only; and if no name stands twice every description has its tensor, and all that was loaded is there. -/
theorem get?_and_tensor?_of_load (hparse : Header.parse file = .ok header) (hload : load file header = .ok s) :
    (∀ name, (s.get? name).isSome = (header.tensor? name).isSome) ∧
      (∀ name t, s.get? name = some t → ∃ last, header.tensors.reverse.find? (·.name == name) = some last ∧
        Holds file header.dataOffset last t) ∧
      (∀ name info, header.tensor? name = some info → (∀ other ∈ header.tensors, other.name = name → other = info) →
        ∃ t, s.get? name = some t ∧ Holds file header.dataOffset info t) ∧
      s.size = (header.tensors.map TensorInfo.name).dedup.length ∧
      s.storedBytes ≤ s.residentBytes ∧
      ((header.tensors.map TensorInfo.name).Nodup →
        s.size = header.tensors.length ∧ s.residentBytes = s.storedBytes) := by
  have hfits : ∀ info ∈ header.tensors, info.elements * 4 ≤ Word.max64 := fun info hinfo => by
    rw [(Header.exact_of_parse hparse).1 info hinfo]
    exact Header.count_le_of_parse hparse hinfo
  obtain ⟨loaded, hinfos, hloaded, htensors, hresident, -⟩ := exists_loaded hload
  have hholds : ∀ p ∈ loaded, Holds file header.dataOffset p.1 p.2 := fun p hp => by
    obtain ⟨raw, hraw, hdecode⟩ := hloaded p hp
    obtain ⟨hinside, rfl⟩ := of_slice_eq_ok hraw
    exact holds_of_decode (hfits _ (hinfos ▸ List.mem_map_of_mem hp)) hinside hdecode
  have hrel := rel_last hholds htensors
  rw [hinfos] at hrel
  have hnames : (loaded.map fun p => (p.1.name, p.2)).map Prod.fst = header.tensors.map TensorInfo.name := by
    rw [← hinfos, List.map_map, List.map_map]
    rfl
  have hsum : s.residentBytes = (((loaded.map fun p => (p.1.name, p.2)).map fun p => p.2.bytes)).sum := by
    rw [hresident, List.map_map, Nat.zero_add]
    rfl
  have hsize : s.size = (header.tensors.map TensorInfo.name).dedup.length := by
    rw [size, htensors, Dictionary.length_insertAll, hnames]
  refine ⟨fun name => ?_, fun name t ht => ?_, fun name info hinfo honly => ?_, hsize, ?_, fun hnodup => ⟨?_, ?_⟩⟩
  · rw [← isSome_tensor?, (exists_of_rel (hrel name)).1]
  · obtain ⟨hsome, hlast⟩ := exists_of_rel (hrel name)
    rw [ht, Option.isSome_some] at hsome
    obtain ⟨last, hfind⟩ := Option.isSome_iff_exists.1 hsome
    exact ⟨last, hfind, hlast last t hfind ht⟩
  · obtain ⟨hsome, hlast⟩ := exists_of_rel (hrel name)
    have hfound := isSome_tensor? header name
    rw [hinfo, Option.isSome_some] at hfound
    obtain ⟨last, hfind⟩ := Option.isSome_iff_exists.1 hfound
    obtain ⟨t, ht⟩ := Option.isSome_iff_exists.1 (hsome.symm.trans hfound)
    -- the only description of this name is also the last
    have hname : last.name = name := by simpa using List.find?_some hfind
    obtain rfl := honly last (List.mem_reverse.1 (List.mem_of_find?_eq_some hfind)) hname
    exact ⟨t, ht, hlast last t hfind ht⟩
  · rw [hsum, storedBytes, htensors]
    simpa using Dictionary.sum_insertAll_le Tensor.bytes (loaded.map fun p => (p.1.name, p.2)) []
  · rw [hsize, hnodup.dedup, List.length_map]
  · rw [hsum, storedBytes, htensors, Dictionary.insertAll_of_nodup (by simpa [Dictionary.names, hnames] using hnodup),
      List.nil_append]

/-- Two tensors of one name and one of another are loaded: how many there are then, their bytes, the bytes that were
loaded, and the dimensions of the one whose name stands twice. -/
theorem exists_load_stored : ∃ header s, Header.parse stored.bytes = .ok header ∧ header.tensors = stored.infos ∧
    load stored.bytes header = .ok s ∧
    (s.size, s.storedBytes, s.residentBytes, (s.get? "a").map Tensor.dims) = (2, 16, 24, some [3]) := by
  have hload : (load stored.bytes ⟨3, stored.metadata, stored.infos,
      Word.roundUp stored.metadata.alignment stored.header.length⟩).toOption.map
        (fun s => (s.size, s.storedBytes, s.residentBytes, (s.get? "a").map Tensor.dims)) =
      some (2, 16, 24, some [3]) := by
    decide +kernel
  obtain ⟨s, hs, hfacts⟩ := Option.map_eq_some_iff.1 hload
  refine ⟨_, s, Container.parse_bytes (by decide), rfl, ?_, hfacts⟩
  cases hok : load stored.bytes ⟨3, stored.metadata, stored.infos,
      Word.roundUp stored.metadata.alignment stored.header.length⟩ with
  | error e =>
    rw [hok] at hs
    cases hs
  | ok s' =>
    rw [hok] at hs
    cases hs
    rfl

theorem get?_and_tensor?_of_load_stored : ∃ header s, Header.parse stored.bytes = .ok header ∧
    load stored.bytes header = .ok s ∧ s.size = 2 ∧
    ∃ t, s.get? "b" = some t ∧ Holds stored.bytes header.dataOffset ⟨"b", [1], .bf16, 64⟩ t := by
  obtain ⟨header, s, hparse, hinfos, hload, -⟩ := exists_load_stored
  obtain ⟨-, -, honce, hsize, -⟩ := get?_and_tensor?_of_load hparse hload
  rw [hinfos] at honce hsize
  refine ⟨header, s, hparse, hload, hsize.trans (by decide), honce "b" _ ?_ ?_⟩
  · rw [Header.tensor?, hinfos]
    decide
  · decide

/-- **Where a name stands twice the look-ups differ**: the header answers with the first tensor and counts both, the
store has the second, and counts the bytes of both. -/
theorem get?_ne_tensor?_stored : ∃ header s, Header.parse stored.bytes = .ok header ∧
    load stored.bytes header = .ok s ∧ (s.get? "a").map Tensor.dims ≠ (header.tensor? "a").map TensorInfo.dims ∧
    s.size ≠ header.tensors.length ∧ s.residentBytes ≠ s.storedBytes := by
  obtain ⟨header, s, hparse, hinfos, hload, hfacts⟩ := exists_load_stored
  simp only [Prod.mk.injEq] at hfacts
  obtain ⟨hsize, hstored, hresident, hdims⟩ := hfacts
  refine ⟨header, s, hparse, hload, ?_, ?_, by omega⟩
  · rw [hdims, Header.tensor?, hinfos]
    decide
  · rw [hsize, hinfos]
    decide

end CausalLM.WeightStore
