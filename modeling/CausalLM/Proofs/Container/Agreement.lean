import CausalLM.Proofs.Container.Layout
import CausalLM.Proofs.Container.RoundTrip
import CausalLM.Proofs.Number.Widening
import Mathlib.Algebra.BigOperators.Ring.List
import Mathlib.Algebra.Order.BigOperators.Group.List
import Mathlib.Algebra.Order.Ring.Nat
import Mathlib.Data.List.TakeWhile
/-!
# Proofs.Container.Agreement — what is read of a draft is what was put into it

The header of a draft's bytes describes the draft (`describes_parse`): the last value of each key, the tensors in
order, and offsets at which their data stands.  The number of elements has to fit in a word on the way as well as in
the end, which makes a difference where a dimension is zero (`Admissible.refused`).
-/
namespace CausalLM.Container

namespace Draft

/-! ## Counting elements -/

/-- **The product is checked up to the first zero**; behind it everything fits. -/
theorem foldlM_checkedMul : ∀ {dims : List Nat} {n : Nat}, n * (dims.takeWhile (· ≠ 0)).prod ≤ Word.max64 →
    dims.foldlM Word.checkedMul n = some (n * dims.prod)
  | [], n, _ => by
    rw [List.foldlM_nil, List.prod_nil, Nat.mul_one]
    rfl
  | dim :: dims, n, h => by
    rw [List.foldlM_cons, List.prod_cons, ← Nat.mul_assoc]
    by_cases hzero : dim = 0
    · subst hzero
      have hrest : 0 * (dims.takeWhile (· ≠ 0)).prod ≤ Word.max64 := by
        rw [Nat.zero_mul]
        exact Nat.zero_le _
      rw [Word.checkedMul, Nat.mul_zero, show Word.checked 0 = some 0 from rfl]
      exact foldlM_checkedMul hrest
    · rw [List.takeWhile_cons_of_pos (by simpa using hzero), List.prod_cons, ← Nat.mul_assoc] at h
      have hpos : 1 ≤ (dims.takeWhile (· ≠ 0)).prod := by
        refine Nat.one_le_iff_ne_zero.2 (List.prod_ne_zero fun hmem => ?_)
        simpa using List.mem_takeWhile_imp hmem
      have hfits : n * dim ≤ Word.max64 := Nat.le_trans (Nat.le_mul_of_pos_right _ hpos) h
      rw [Word.checkedMul, Word.checked_eq_some_iff.2 ⟨rfl, hfits⟩]
      exact foldlM_checkedMul h

theorem foldlM_checkedMul_eq_none : ∀ {dims : List Nat} {n : Nat}, n ≤ Word.max64 →
    Word.max64 < n * (dims.takeWhile (· ≠ 0)).prod → dims.foldlM Word.checkedMul n = none
  | [], n, hn, h => by
    rw [List.takeWhile_nil, List.prod_nil, Nat.mul_one] at h
    omega
  | dim :: dims, n, hn, h => by
    rw [List.foldlM_cons]
    by_cases hzero : dim = 0
    · rw [hzero, List.takeWhile_cons_of_neg (by simp), List.prod_nil, Nat.mul_one] at h
      omega
    · rw [List.takeWhile_cons_of_pos (by simpa using hzero), List.prod_cons, ← Nat.mul_assoc] at h
      by_cases hfits : n * dim ≤ Word.max64
      · rw [Word.checkedMul, Word.checked_eq_some_iff.2 ⟨rfl, hfits⟩]
        exact foldlM_checkedMul_eq_none hfits h
      · rw [Word.checkedMul, Word.checked_eq_none_iff.2 (Nat.lt_of_not_le hfits)]
        rfl

/-- **The number of elements of a tensor.** -/
def Tensor.elements (t : Tensor) : Nat := t.dims.prod

/-- The elements of several tensors. -/
def elements (ts : List Tensor) : Nat := (ts.map Tensor.elements).sum

theorem totalWith_eq_some {t : Tensor} {total : Nat} (hproduct : (t.dims.takeWhile (· ≠ 0)).prod ≤ Word.max64)
    (htotal : 4 * (total + t.elements) ≤ Word.max64) : totalWith total t.dims = some (total + t.elements) := by
  have hcount : checkedProduct t.dims = some t.elements := by
    have h := foldlM_checkedMul (n := 1) (by rwa [Nat.one_mul])
    rwa [Nat.one_mul] at h
  have hsum : Word.checkedAdd total t.elements = some (total + t.elements) :=
    Word.checked_eq_some_iff.2 ⟨rfl, by omega⟩
  have hsize : Word.checkedMul (total + t.elements) 4 = some ((total + t.elements) * 4) :=
    Word.checked_eq_some_iff.2 ⟨rfl, by omega⟩
  rw [totalWith, hcount]
  simp only [Option.bind_eq_bind, Option.bind_some]
  rw [hsum]
  simp only [Option.bind_some]
  rw [hsize]
  rfl

theorem totalWithAll_eq_some : ∀ {ts : List Tensor} {total : Nat},
    (∀ t ∈ ts, (t.dims.takeWhile (· ≠ 0)).prod ≤ Word.max64) → 4 * (total + elements ts) ≤ Word.max64 →
    totalWithAll total ts = some (total + elements ts)
  | [], _, _, _ => rfl
  | t :: ts, total, hproducts, htotal => by
    obtain ⟨ht, hts⟩ := List.forall_mem_cons.1 hproducts
    have hsplit : elements (t :: ts) = t.elements + elements ts := List.sum_cons
    rw [hsplit, ← Nat.add_assoc] at htotal ⊢
    rw [totalWithAll, List.foldlM_cons, totalWith_eq_some ht (by omega)]
    exact totalWithAll_eq_some hts htotal

theorem totalWithAll_eq_none : ∀ {ts : List Tensor} {t : Tensor} {total : Nat}, t ∈ ts →
    Word.max64 < (t.dims.takeWhile (· ≠ 0)).prod → totalWithAll total ts = none
  | [], _, _, ht, _ => by cases ht
  | u :: ts, t, total, ht, hover => by
    rw [totalWithAll, List.foldlM_cons]
    rcases List.mem_cons.1 ht with rfl | ht
    · have hcount : checkedProduct t.dims = none :=
        foldlM_checkedMul_eq_none (by decide) (by rwa [Nat.one_mul])
      rw [totalWith, hcount]
      rfl
    · cases totalWith total u.dims with
      | none => rfl
      | some total' => exact totalWithAll_eq_none ht hover

/-! ## Drafts -/

/-- **A tensor that may be added**: a name that is not too long, and one to four dimensions, each a word. -/
structure Tensor.Admissible (t : Tensor) : Prop where
  name : t.name.utf8ByteSize ≤ maxStringBytes
  dims_pos : 0 < t.dims.length
  dims_le : t.dims.length ≤ maxDims
  dims : ∀ n ∈ t.dims, n ≤ Word.max64

/-- **A draft that may be written**: strings and arrays are not too long, numbers and positions are words, all
elements take no more than a word of bytes in binary32, and the alignment is left alone. -/
structure Admissible (d : Draft) : Prop where
  pairs : ∀ p ∈ d.pairs, ReadablePair p
  tensors : ∀ t ∈ d.tensors, t.Admissible
  elements : 4 * elements d.tensors ≤ Word.max64
  alignment : ∀ p ∈ d.pairs, p.1 ≠ "general.alignment"
  length : d.bytes.length ≤ Word.max64

theorem Admissible.product_le {d : Draft} (h : d.Admissible) {t : Tensor} (ht : t ∈ d.tensors)
    (hzero : 0 ∈ t.dims → (t.dims.takeWhile (· ≠ 0)).prod ≤ Word.max64) :
    (t.dims.takeWhile (· ≠ 0)).prod ≤ Word.max64 := by
  by_cases hmem : 0 ∈ t.dims
  · exact hzero hmem
  · have hall : t.dims.takeWhile (· ≠ 0) = t.dims :=
      List.takeWhile_eq_self_iff.2 fun n hn => by simpa using fun h : n = 0 => hmem (h ▸ hn)
    have hle : t.elements ≤ Draft.elements d.tensors := List.le_sum_of_mem (List.mem_map_of_mem ht)
    have := h.elements
    rw [hall]
    change t.elements ≤ Word.max64
    omega

theorem length_bytes (d : Draft) :
    d.bytes.length = Word.roundUp alignment d.header.length + (body 0 (placed 0 d.tensors)).length := by
  rw [bytes, List.length_append, length_padded]

theorem length_le_flatMap {α : Type} {f : α → Bytes} (hf : ∀ x, f x ≠ []) (l : List α) :
    l.length ≤ (l.flatMap f).length := by
  rw [List.length_flatMap, ← List.length_map (fun x => (f x).length)]
  refine List.length_le_sum_of_one_le _ fun n hn => ?_
  obtain ⟨x, -, rfl⟩ := List.mem_map.1 hn
  exact List.length_pos_iff.2 (hf x)

theorem writeString_ne_nil (s : String) : writeString s ≠ [] := by
  intro h
  have := congrArg List.length h
  simp [writeString] at this

/-- What a header counts is in it. -/
theorem length_le_header (d : Draft) : d.pairs.length ≤ d.header.length ∧ d.tensors.length ≤ d.header.length := by
  have hplaced : (placed 0 d.tensors).length = d.tensors.length := by
    rw [← List.length_map Prod.fst, map_fst_placed]
  rw [header, List.length_append, List.length_append]
  constructor
  · have hpairs := length_le_flatMap (f := writePair) (fun p => by simp [writePair, writeString_ne_nil]) d.pairs
    omega
  · rw [← hplaced]
    refine Nat.le_trans (length_le_flatMap (fun p => ?_) _) (Nat.le_add_left _ _)
    simp [writeInfo, writeString_ne_nil]

theorem Admissible.lengths {d : Draft} (h : d.Admissible) : d.pairs.length < 2 ^ 64 ∧ d.tensors.length < 2 ^ 64 := by
  have hcounts := d.length_le_header
  have hheader := le_roundUp_alignment d.header.length
  have hbytes := h.length
  have hmax : Word.max64 < 2 ^ 64 := by decide
  rw [length_bytes] at hbytes
  omega

theorem Admissible.placed_readable {d : Draft} (h : d.Admissible) : ∀ p ∈ placed 0 d.tensors, p.1.Readable p.2 := by
  rintro ⟨t, offset⟩ hp
  have htensor := h.tensors t (mem_of_mem_placed hp)
  have hend := end_le_of_mem_placed (Nat.le_refl 0) hp
  have hbytes := h.length
  have hmax : Word.max64 < 2 ^ 64 := by decide
  rw [length_bytes] at hbytes
  refine ⟨htensor.name, htensor.dims_pos, htensor.dims_le, fun n hn => ?_, ?_⟩
  · exact Nat.lt_of_le_of_lt (htensor.dims n hn) hmax
  · dsimp only
    omega

/-- **A draft that may be written can be read**, if its products fit. -/
theorem Admissible.readable {d : Draft} (h : d.Admissible)
    (hzero : ∀ t ∈ d.tensors, 0 ∈ t.dims → (t.dims.takeWhile (· ≠ 0)).prod ≤ Word.max64) : d.Readable := by
  have htotal : totalWithAll 0 d.tensors = some (0 + Draft.elements d.tensors) :=
    totalWithAll_eq_some (fun t ht => h.product_le ht (hzero t ht)) (by simpa using h.elements)
  exact ⟨h.pairs, h.placed_readable, by rw [htotal]; rfl, h.lengths.1, h.lengths.2⟩

/-- **A product that does not fit in a word is refused**, also in front of a zero. -/
theorem Admissible.refused {d : Draft} (h : d.Admissible) {t : Tensor} (ht : t ∈ d.tensors)
    (hover : Word.max64 < (t.dims.takeWhile (· ≠ 0)).prod) :
    ∃ u ∈ d.tensors, Header.parse d.bytes = .error u.overflow :=
  parse_bytes_of_overflow h.pairs h.placed_readable h.lengths.1 h.lengths.2 (totalWithAll_eq_none ht hover)

/-! ## Metadata -/

/-- **The value last added for a key.** -/
def last? (pairs : List (String × Value)) (key : String) : Option Value :=
  (pairs.reverse.find? (·.1 == key)).map Prod.snd

theorem get?_metadata (d : Draft) (key : String) :
    d.metadata.get? key = (last? d.pairs key).map Value.toMetadata := by
  rw [metadata, Metadata.get?_foldl_insert, last?, Option.map_map]
  exact Option.or_none

/-- A draft that leaves the alignment alone has the default one. -/
theorem Admissible.alignment_eq {d : Draft} (h : d.Admissible) : d.metadata.alignment = Draft.alignment := by
  have hlast : last? d.pairs "general.alignment" = none := by
    rw [last?, Option.map_eq_none_iff, List.find?_eq_none]
    intro p hp
    simpa using h.alignment p (List.mem_reverse.1 hp)
  have hnone : d.metadata.uint? "general.alignment" = none := by
    rw [Metadata.uint?, get?_metadata, hlast]
    rfl
  rw [Metadata.alignment, hnone]
  rfl

/-- **A value is read as** the same number, string or list; integers keep their sign, and a binary32 number is the
same number in binary64. -/
def Value.ReadAs : Value → Metadata.Value → Prop
  | .word32 n, v | .word64 n, v => v = .uint n
  | .single x, v => ∃ y : Double, v = .float y ∧ y.number = x.number
  | .bool b, v => v = .bool b
  | .string s, v => v = .string s
  | .strings l, v => v = .array (l.map .string)
  | .integers l, v => v = .array (l.map .int)

theorem Value.readAs_toMetadata (v : Value) : v.ReadAs v.toMetadata := by
  cases v with
  | single x => exact ⟨x.widen, rfl, x.number_widen⟩
  | _ => rfl

/-! ## Headers -/

/-- **The header describes the draft**, and the data is where the header says. -/
structure Describes (d : Draft) (header : Header) : Prop where
  version : header.version = 3
  metadata : ∀ key, Option.Rel Value.ReadAs (last? d.pairs key) (header.metadata.get? key)
  tensors : header.tensors.map (fun t => (t.name, t.dims, t.type)) = d.tensors.map fun t => (t.name, t.dims, t.type)
  aligned : ∀ t ∈ header.tensors, t.offset % 32 = 0
  disjoint : (header.tensors.zip d.tensors).Pairwise fun a b => a.1.offset + a.2.data.length ≤ b.1.offset
  data : ∀ p ∈ header.tensors.zip d.tensors,
    (d.bytes.drop (header.dataOffset + p.1.offset)).take p.2.data.length = p.2.data

theorem zip_infos (d : Draft) : d.infos.zip d.tensors = (placed 0 d.tensors).map fun p => (p.1.info p.2, p.1) := by
  conv => lhs; rw [infos]; arg 2; rw [← map_fst_placed 0 d.tensors]
  exact List.zip_map'

/-- The header of a draft describes it, if tensor data starts where the header's padding ends. -/
theorem describes_header (d : Draft) :
    d.Describes ⟨3, d.metadata, d.infos, Word.roundUp alignment d.header.length⟩ where
  version := rfl
  metadata key := by
    dsimp only
    rw [get?_metadata]
    cases last? d.pairs key with
    | none => exact .none
    | some v => exact .some v.readAs_toMetadata
  tensors := by
    dsimp only
    conv => rhs; rw [← map_fst_placed 0 d.tensors]
    rw [infos, List.map_map, List.map_map]
    rfl
  aligned t ht := by
    obtain ⟨p, hp, rfl⟩ := List.mem_map.1 ht
    exact mod_of_mem_placed rfl hp
  disjoint := by
    dsimp only
    rw [zip_infos, List.pairwise_map]
    exact pairwise_placed 0 d.tensors
  data p hp := by
    dsimp only at hp ⊢
    rw [zip_infos] at hp
    obtain ⟨⟨t, offset⟩, hplaced, rfl⟩ := List.mem_map.1 hp
    rw [bytes, ← length_padded, List.drop_length_add_append]
    exact data_in_body (Nat.le_refl 0) hplaced

/-- **What is read of a written draft describes it**, and no position goes back while it is written.  In a tensor with
a dimension zero the product of the dimensions in front of it has to fit in a word. -/
theorem describes_parse (d : Draft) (h : d.Admissible)
    (hzero : ∀ t ∈ d.tensors, 0 ∈ t.dims → (t.dims.takeWhile (· ≠ 0)).prod ≤ Word.max64) :
    (∃ header, Header.parse d.bytes = .ok header ∧ d.Describes header) ∧ d.bytesChecked = some d.bytes := by
  refine ⟨⟨_, parse_bytes (h.readable hzero), ?_⟩, d.bytesChecked_eq⟩
  rw [h.alignment_eq]
  exact d.describes_header

/-- A key given twice, and three tensors: one that is no multiple of the alignment, an empty one, and one behind it. -/
def sample : Draft where
  pairs := [("toy.size", .word32 1), ("toy.flag", .bool true), ("toy.size", .single .half),
    ("toy.ids", .integers [-1, 2]), ("toy.names", .strings ["a", ""])]
  tensors := [.ofSingles "a" [3] [.one, .two, .half], ⟨"b", [2 ^ 40, 0], .q4_0, []⟩,
    .ofHalves "c" [2] [.half, .negZero]]

theorem describes_parse_sample :
    (∃ header, Header.parse sample.bytes = .ok header ∧ sample.Describes header) ∧
      sample.bytesChecked = some sample.bytes := by
  refine describes_parse sample ⟨by decide, fun t ht => ?_, by decide, by decide, by decide +kernel⟩ (by decide)
  have hdims : ∀ t ∈ sample.tensors, t.name.utf8ByteSize ≤ maxStringBytes ∧ 0 < t.dims.length ∧
      t.dims.length ≤ maxDims ∧ ∀ n ∈ t.dims, n ≤ Word.max64 := by decide
  obtain ⟨h₁, h₂, h₃, h₄⟩ := hdims t ht
  exact ⟨h₁, h₂, h₃, h₄⟩

/-- A tensor without elements whose first two dimensions do not multiply to a word. -/
def hollow : Draft := empty.addTensor ⟨"t", [2 ^ 32, 2 ^ 32, 0], .f32, []⟩

/-- The total of elements alone is not enough. -/
theorem not_describes_parse_hollow :
    hollow.Admissible ∧ ¬∃ header, Header.parse hollow.bytes = .ok header ∧ hollow.Describes header := by
  have hadmissible : hollow.Admissible := by
    refine ⟨by decide, fun t ht => ?_, by decide, by decide, by decide +kernel⟩
    rw [List.mem_singleton.1 ht]
    exact ⟨by decide, by decide, by decide, by decide⟩
  refine ⟨hadmissible, ?_⟩
  rintro ⟨header, hparse, -⟩
  obtain ⟨u, -, hrefused⟩ := hadmissible.refused (List.mem_singleton.2 rfl) (by decide)
  rw [hrefused] at hparse
  cases hparse

end Draft
end CausalLM.Container
