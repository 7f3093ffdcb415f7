import CausalLM.Container.Draft
import CausalLM.Proofs.Bytes
import CausalLM.Proofs.Outcome
import CausalLM.Proofs.Text.Characters
/-!
# Proofs.Container.RoundTrip — a container that was written can be read

Every field of a container is read back from what was written of it, whatever comes behind (`reads_value`,
`readPairs_append`, `readTensors_append`).  `parse_bytes` puts them together: the header of a draft's bytes has the
draft's metadata, and its tensors with the offsets they were placed at.
-/
namespace CausalLM.Container

/-- **The reading gives a value and leaves some bytes.** -/
def Reads {α : Type} {s : Bytes} (x : Reading α s) (a : α) (r : Bytes) : Prop := ∃ hr, x = .ok (a, ⟨r, hr⟩)

variable {r : Bytes}

/-! ## Fields -/

theorem reads_field {width : Nat} {b : Bytes} (h : b.length = width + 1) (r : Bytes) :
    Reads (readField width (b ++ r)) b r := by
  have hsplit : Bytes.split? (width + 1) (b ++ r) = some (b, r) := Bytes.split?_eq_some_iff.2 ⟨rfl, h⟩
  unfold readField
  split
  · rename_i hnone
    rw [hsplit] at hnone
    cases hnone
  · rename_i b' r' hsome
    rw [hsplit] at hsome
    cases hsome
    exact ⟨_, rfl⟩

theorem reads_word32 {n : Nat} (h : n < 2 ^ 32) (r : Bytes) : Reads (readWord32 (Bytes.ofNat 4 n ++ r)) n r := by
  obtain ⟨hr, hfield⟩ := reads_field (Bytes.length_ofNat 4 n) r
  refine ⟨hr, ?_⟩
  rw [readWord32, hfield]
  simp only [Except.map, Bytes.toNat_ofNat_of_lt (show n < 256 ^ 4 from h)]

theorem reads_word64 {n : Nat} (h : n < 2 ^ 64) (r : Bytes) : Reads (readWord64 (Bytes.ofNat 8 n ++ r)) n r := by
  obtain ⟨hr, hfield⟩ := reads_field (Bytes.length_ofNat 8 n) r
  refine ⟨hr, ?_⟩
  rw [readWord64, hfield]
  simp only [Except.map, Bytes.toNat_ofNat_of_lt (show n < 256 ^ 8 from h)]

theorem reads_string {text : String} (h : text.utf8ByteSize ≤ maxStringBytes) (r : Bytes) :
    Reads (readString (Draft.writeString text ++ r)) text r := by
  have hlt : text.utf8ByteSize < 2 ^ 64 := Nat.lt_of_le_of_lt h (by decide)
  obtain ⟨hr, hword⟩ := reads_word64 hlt (Utf8.ofString text ++ r)
  have hsplit : Bytes.split? text.utf8ByteSize (Utf8.ofString text ++ r) = some (Utf8.ofString text, r) :=
    Bytes.split?_eq_some_iff.2 ⟨rfl, Utf8.length_ofString text⟩
  rw [Draft.writeString, List.append_assoc]
  unfold readString
  rw [hword]
  simp only
  rw [if_neg (Nat.not_lt.2 h)]
  split
  · rename_i hnone
    rw [hsplit] at hnone
    cases hnone
  · rename_i b t hsome
    rw [hsplit] at hsome
    cases hsome
    rw [Utf8.toStringLossy_ofString]
    exact ⟨_, rfl⟩

/-! ## Values -/

/-- **A value whose bytes can be read**: its numbers fit in their words, and its strings and arrays are not too long. -/
def Draft.Value.Readable : Draft.Value → Prop
  | .word32 n => n < 2 ^ 32
  | .word64 n => n < 2 ^ 64
  | .single _ | .bool _ => True
  | .string s => s.utf8ByteSize ≤ maxStringBytes
  | .strings l => l.length ≤ maxArrayLength ∧ ∀ s ∈ l, s.utf8ByteSize ≤ maxStringBytes
  | .integers l => l.length ≤ maxArrayLength ∧ ∀ n ∈ l, Int.bmod n (2 ^ 32) = n

instance : DecidablePred Draft.Value.Readable
  | .word32 n => inferInstanceAs (Decidable (n < 2 ^ 32))
  | .word64 n => inferInstanceAs (Decidable (n < 2 ^ 64))
  | .single _ | .bool _ => inferInstanceAs (Decidable True)
  | .string s => inferInstanceAs (Decidable (s.utf8ByteSize ≤ maxStringBytes))
  | .strings l =>
    inferInstanceAs (Decidable (l.length ≤ maxArrayLength ∧ ∀ s ∈ l, s.utf8ByteSize ≤ maxStringBytes))
  | .integers l => inferInstanceAs (Decidable (l.length ≤ maxArrayLength ∧ ∀ n ∈ l, Int.bmod n (2 ^ 32) = n))

/-- The value that is read back. -/
def Draft.Value.toMetadata : Draft.Value → Metadata.Value
  | .word32 n | .word64 n => .uint n
  | .single x => .float x.widen
  | .bool b => .bool b
  | .string s => .string s
  | .strings l => .array (l.map .string)
  | .integers l => .array (l.map .int)

theorem reads_stringValue {text : String} (h : text.utf8ByteSize ≤ maxStringBytes) (r : Bytes) :
    Reads (readValue stringType (Draft.writeString text ++ r)) (.string text) r := by
  obtain ⟨hr, hstring⟩ := reads_string h r
  refine ⟨hr, ?_⟩
  rw [readValue, if_pos rfl, hstring]
  rfl

theorem reads_scalar {type width : Nat} {value : Bytes → Metadata.Value} (htype : scalar? type = some (width, value))
    (hstring : type ≠ stringType) (harray : type ≠ arrayType) {b : Bytes} (h : b.length = width + 1) (r : Bytes) :
    Reads (readValue type (b ++ r)) (value b) r := by
  obtain ⟨hr, hfield⟩ := reads_field h r
  refine ⟨hr, ?_⟩
  rw [readValue, if_neg hstring, if_neg harray, htype]
  simp only
  rw [hfield]
  rfl

/-- **Items are read one after the other**, if each is read back. -/
theorem readItems_append {α : Type} {type : Nat} {write : α → Bytes} {value : α → Metadata.Value} : ∀ {l : List α}
    (_ : ∀ x ∈ l, ∀ r, Reads (readValue type (write x ++ r)) (value x) r) (done : List Metadata.Value) (r : Bytes)
    {limit : Nat} (hlimit : (l.flatMap write ++ r).length < limit), ∃ hr,
    readItems type l.length done (l.flatMap write ++ r) limit hlimit = .ok (done.reverse ++ l.map value, ⟨r, hr⟩)
  | [], _, done, r, limit, hlimit => by
    refine ⟨hlimit, ?_⟩
    rw [List.length_nil, readItems, List.map_nil, List.append_nil]
    rfl
  | x :: l, hread, done, r, limit, hlimit => by
    obtain ⟨hx, hl⟩ := List.forall_mem_cons.1 hread
    have hsplit : (x :: l).flatMap write ++ r = write x ++ (l.flatMap write ++ r) := by
      rw [List.flatMap_cons, List.append_assoc]
    obtain ⟨hr, hvalue⟩ := hx (l.flatMap write ++ r)
    simp only [hsplit] at hlimit ⊢
    obtain ⟨hr', hitems⟩ := readItems_append hl (value x :: done) r (Nat.lt_trans hr hlimit)
    refine ⟨hr', ?_⟩
    rw [List.length_cons, readItems, hvalue]
    simp only
    rw [hitems, List.reverse_cons, List.append_assoc, List.map_cons, List.singleton_append]

theorem reads_array {α : Type} {type : Nat} {write : α → Bytes} {value : α → Metadata.Value} {l : List α}
    (htype : type < 2 ^ 32) (hlen : l.length ≤ maxArrayLength)
    (hread : ∀ x ∈ l, ∀ r, Reads (readValue type (write x ++ r)) (value x) r) (r : Bytes) :
    Reads (readValue arrayType (Bytes.ofNat 4 type ++ Bytes.ofNat 8 l.length ++ l.flatMap write ++ r))
      (.array (l.map value)) r := by
  have hlt : l.length < 2 ^ 64 := Nat.lt_of_le_of_lt hlen (by decide)
  rw [List.append_assoc, List.append_assoc]
  obtain ⟨h₁, hword⟩ := reads_word32 htype (Bytes.ofNat 8 l.length ++ (l.flatMap write ++ r))
  obtain ⟨h₂, hcount⟩ := reads_word64 hlt (l.flatMap write ++ r)
  obtain ⟨h₃, hitems⟩ := readItems_append hread [] r (Nat.lt_trans h₂ h₁)
  refine ⟨h₃, ?_⟩
  rw [readValue, if_neg (by decide), if_pos rfl, hword]
  simp only
  rw [hcount]
  simp only
  rw [if_neg (Nat.not_lt.2 hlen), hitems]
  rfl

/-- **A value is read back from what was written.** -/
theorem reads_value {v : Draft.Value} (h : v.Readable) (r : Bytes) :
    Reads (readValue v.type (v.bytes ++ r)) v.toMetadata r := by
  cases v with
  | word32 n =>
    have hread := reads_scalar (show scalar? 4 = some _ from rfl) (by decide) (by decide) (Bytes.length_ofNat 4 n) r
    rwa [Bytes.toNat_ofNat_of_lt (show n < 256 ^ 4 from h)] at hread
  | word64 n =>
    have hread := reads_scalar (show scalar? 10 = some _ from rfl) (by decide) (by decide) (Bytes.length_ofNat 8 n) r
    rwa [Bytes.toNat_ofNat_of_lt (show n < 256 ^ 8 from h)] at hread
  | single x =>
    have hread := reads_scalar (show scalar? 6 = some _ from rfl) (by decide) (by decide) (Bytes.length_ofNat 4 x.bits.toNat) r
    rwa [Bytes.toNat_ofNat_of_lt (show x.bits.toNat < 256 ^ 4 from x.bits.toNat_lt), UInt32.ofNat_toNat] at hread
  | bool b =>
    have hread := reads_scalar (b := [if b then 1 else 0]) (show scalar? 7 = some _ from rfl) (by decide) (by decide) rfl r
    cases b <;> exact hread
  | string s => exact reads_stringValue h r
  | strings l => exact reads_array (by decide) h.1 (fun s hs r => reads_stringValue (h.2 s hs) r) r
  | integers l =>
    refine reads_array (by decide) h.1 (fun n hn r => ?_) r
    have hread := reads_scalar (show scalar? 5 = some _ from rfl) (by decide) (by decide) (Bytes.length_ofInt 4 n) r
    rwa [Bytes.toInt_ofInt, show Int.bmod n (256 ^ 4) = n from h.2 n hn] at hread

/-! ## Metadata -/

/-- A pair whose bytes can be read. -/
abbrev Draft.ReadablePair (p : String × Draft.Value) : Prop := p.1.utf8ByteSize ≤ maxStringBytes ∧ p.2.Readable

theorem type_lt (v : Draft.Value) : v.type < 2 ^ 32 := by
  cases v <;> simp [Draft.Value.type, stringType, arrayType]

theorem reads_pair {p : String × Draft.Value} (h : Draft.ReadablePair p) (r : Bytes) :
    Reads (readPair (Draft.writePair p ++ r)) (p.1, p.2.toMetadata) r := by
  rw [Draft.writePair, List.append_assoc, List.append_assoc]
  obtain ⟨h₁, hkey⟩ := reads_string h.1 (Bytes.ofNat 4 p.2.type ++ (p.2.bytes ++ r))
  obtain ⟨h₂, htype⟩ := reads_word32 (type_lt p.2) (p.2.bytes ++ r)
  obtain ⟨h₃, hvalue⟩ := reads_value h.2 r
  refine ⟨Nat.lt_trans h₃ (Nat.lt_trans h₂ h₁), ?_⟩
  rw [readPair, hkey]
  simp only
  rw [htype]
  simp only
  rw [hvalue]

/-- **Pairs are added to the metadata in order**, so the last one with a key counts. -/
theorem readPairs_append : ∀ {pairs : List (String × Draft.Value)}, (∀ p ∈ pairs, Draft.ReadablePair p) →
    ∀ (m : Metadata) (r : Bytes), readPairs pairs.length m (pairs.flatMap Draft.writePair ++ r) =
      .ok (pairs.foldl (fun m p => m.insert p.1 p.2.toMetadata) m, r)
  | [], _, _, _ => rfl
  | p :: pairs, h, m, r => by
    obtain ⟨hp, hpairs⟩ := List.forall_mem_cons.1 h
    obtain ⟨hr, hpair⟩ := reads_pair hp (pairs.flatMap Draft.writePair ++ r)
    rw [List.length_cons, readPairs, List.flatMap_cons, List.append_assoc, hpair]
    exact readPairs_append hpairs _ r

/-! ## Tensors -/

theorem reads_words : ∀ {l : List Nat}, (∀ n ∈ l, n < 2 ^ 64) → ∀ r : Bytes,
    ∃ hr, readWords l.length (l.flatMap (Bytes.ofNat 8) ++ r) = .ok (l, ⟨r, hr⟩)
  | [], _, r => ⟨Nat.le_refl _, rfl⟩
  | n :: l, h, r => by
    obtain ⟨hn, hl⟩ := List.forall_mem_cons.1 h
    rw [List.flatMap_cons, List.append_assoc]
    obtain ⟨h₁, hword⟩ := reads_word64 hn (l.flatMap (Bytes.ofNat 8) ++ r)
    obtain ⟨h₂, hwords⟩ := reads_words hl r
    refine ⟨Nat.le_trans h₂ (Nat.le_of_lt h₁), ?_⟩
    rw [List.length_cons, readWords, hword]
    simp only
    rw [hwords]

/-- **A tensor whose description can be read**, at an offset. -/
structure Draft.Tensor.Readable (t : Draft.Tensor) (offset : Nat) : Prop where
  name : t.name.utf8ByteSize ≤ maxStringBytes
  dims_pos : 0 < t.dims.length
  dims_le : t.dims.length ≤ maxDims
  dims : ∀ n ∈ t.dims, n < 2 ^ 64
  offset : offset < 2 ^ 64

instance (t : Draft.Tensor) (offset : Nat) : Decidable (t.Readable offset) :=
  decidable_of_iff (t.name.utf8ByteSize ≤ maxStringBytes ∧ 0 < t.dims.length ∧ t.dims.length ≤ maxDims ∧
      (∀ n ∈ t.dims, n < 2 ^ 64) ∧ offset < 2 ^ 64)
    ⟨fun ⟨h₁, h₂, h₃, h₄, h₅⟩ => ⟨h₁, h₂, h₃, h₄, h₅⟩, fun ⟨h₁, h₂, h₃, h₄, h₅⟩ => ⟨h₁, h₂, h₃, h₄, h₅⟩⟩

/-- What a header says of a tensor at an offset. -/
def Draft.Tensor.info (t : Draft.Tensor) (offset : Nat) : TensorInfo := ⟨t.name, t.dims, t.type, offset⟩

theorem id_lt (t : ElementType) : t.id < 2 ^ 32 := by
  cases t <;> decide

/-- The failure of a tensor whose elements do not fit in a word. -/
def Draft.Tensor.overflow (t : Draft.Tensor) : Error :=
  .formatMismatch ("tensor '" ++ t.name ++ "' dimensions " ++ showDims t.dims ++ " overflow")

/-- **A description is read back**, and refused if its elements do not fit in a word. -/
theorem readTensor_append {t : Draft.Tensor} {offset : Nat} (h : t.Readable offset) (total : Nat) (r : Bytes) :
    ∃ hr, readTensor total (Draft.writeInfo t offset ++ r) = match totalWith total t.dims with
      | none => .error t.overflow
      | some total' => .ok ((t.info offset, total'), ⟨r, hr⟩) := by
  -- the fields in order, each in front of the bytes of those behind it
  have hcount : t.dims.length < 2 ^ 32 := Nat.lt_of_le_of_lt h.dims_le (by decide)
  have hid : ElementType.ofId t.type.id = .ok t.type := by
    rw [ElementType.ofId, ElementType.ofId?_id]
  rw [Draft.writeInfo, List.append_assoc, List.append_assoc, List.append_assoc, List.append_assoc]
  obtain ⟨h₁, hname⟩ := reads_string h.name (Bytes.ofNat 4 t.dims.length ++ (t.dims.flatMap (Bytes.ofNat 8) ++
    (Bytes.ofNat 4 t.type.id ++ (Bytes.ofNat 8 offset ++ r))))
  obtain ⟨h₂, hlen⟩ := reads_word32 hcount (t.dims.flatMap (Bytes.ofNat 8) ++
    (Bytes.ofNat 4 t.type.id ++ (Bytes.ofNat 8 offset ++ r)))
  obtain ⟨h₃, hdims⟩ := reads_words h.dims (Bytes.ofNat 4 t.type.id ++ (Bytes.ofNat 8 offset ++ r))
  obtain ⟨h₄, htype⟩ := reads_word32 (id_lt t.type) (Bytes.ofNat 8 offset ++ r)
  obtain ⟨h₅, hoffset⟩ := reads_word64 h.offset r
  refine ⟨by omega, ?_⟩
  rw [readTensor, hname]
  simp only
  rw [hlen]
  simp only
  rw [if_neg (by have := h.dims_pos; have := h.dims_le; omega), hdims]
  simp only
  rw [htype]
  simp only
  rw [hid]
  simp only
  rw [hoffset]
  simp only
  cases totalWith total t.dims <;> rfl

theorem reads_tensor {t : Draft.Tensor} {offset total total' : Nat} (h : t.Readable offset)
    (htotal : totalWith total t.dims = some total') (r : Bytes) :
    Reads (readTensor total (Draft.writeInfo t offset ++ r)) (t.info offset, total') r := by
  obtain ⟨hr, hread⟩ := readTensor_append h total r
  rw [htotal] at hread
  exact ⟨hr, hread⟩

/-- The running total of elements with some tensors, as long as it and its size in binary32 fit in a word. -/
def Draft.totalWithAll (total : Nat) (ts : List Draft.Tensor) : Option Nat :=
  ts.foldlM (fun total t => totalWith total t.dims) total

/-- **Tensors are read back in order**, with the offsets they were placed at. -/
theorem readTensors_append : ∀ {ts : List Draft.Tensor} {offset total : Nat},
    (∀ p ∈ Draft.placed offset ts, p.1.Readable p.2) → (Draft.totalWithAll total ts).isSome = true →
    ∀ (done : List TensorInfo) (r : Bytes), readTensors ts.length total done
      ((Draft.placed offset ts).flatMap (fun (t, offset) => Draft.writeInfo t offset) ++ r) =
      .ok (done.reverse ++ (Draft.placed offset ts).map (fun p => p.1.info p.2), r)
  | [], _, _, _, _, done, r => by
    rw [List.length_nil, readTensors, Draft.placed, List.map_nil, List.append_nil]
    rfl
  | t :: ts, offset, total, h, hcounts, done, r => by
    rw [Draft.placed] at h ⊢
    obtain ⟨ht, hts⟩ := List.forall_mem_cons.1 h
    obtain ⟨total', htotal, hrest⟩ : ∃ total', totalWith total t.dims = some total' ∧
        (Draft.totalWithAll total' ts).isSome = true := by
      rw [Draft.totalWithAll, List.foldlM_cons] at hcounts
      cases htotal : totalWith total t.dims with
      | none =>
        rw [htotal] at hcounts
        cases hcounts
      | some total' =>
        rw [htotal] at hcounts
        exact ⟨total', rfl, hcounts⟩
    obtain ⟨hr, htensor⟩ := reads_tensor ht htotal ((Draft.placed (Word.roundUp Draft.alignment
      (offset + t.data.length)) ts).flatMap (fun (t, offset) => Draft.writeInfo t offset) ++ r)
    rw [List.length_cons, readTensors, List.flatMap_cons, List.append_assoc, htensor]
    simp only
    rw [readTensors_append hts hrest, List.reverse_cons, List.append_assoc, List.map_cons, List.singleton_append]

/-- **Tensors whose elements do not fit in a word are refused**, with the name of one of them. -/
theorem readTensors_of_overflow : ∀ {ts : List Draft.Tensor} {offset total : Nat},
    (∀ p ∈ Draft.placed offset ts, p.1.Readable p.2) → Draft.totalWithAll total ts = none →
    ∀ (done : List TensorInfo) (r : Bytes), ∃ t ∈ ts, readTensors ts.length total done
      ((Draft.placed offset ts).flatMap (fun (t, offset) => Draft.writeInfo t offset) ++ r) = .error t.overflow
  | [], _, _, _, hnone, _, _ => by cases hnone
  | t :: ts, offset, total, h, hnone, done, r => by
    rw [Draft.placed] at h ⊢
    obtain ⟨ht, hts⟩ := List.forall_mem_cons.1 h
    obtain ⟨hr, htensor⟩ := readTensor_append ht total ((Draft.placed (Word.roundUp Draft.alignment
      (offset + t.data.length)) ts).flatMap (fun (t, offset) => Draft.writeInfo t offset) ++ r)
    rw [List.length_cons, readTensors, List.flatMap_cons, List.append_assoc, htensor]
    rw [Draft.totalWithAll, List.foldlM_cons] at hnone
    cases htotal : totalWith total t.dims with
    | none => exact ⟨t, List.mem_cons_self, rfl⟩
    | some total' =>
      rw [htotal] at hnone
      obtain ⟨u, hu, hrefused⟩ := readTensors_of_overflow hts hnone (t.info offset :: done) r
      exact ⟨u, List.mem_cons_of_mem _ hu, hrefused⟩

/-! ## The header -/

/-- **A draft whose bytes can be read.** -/
structure Draft.Readable (d : Draft) : Prop where
  pairs : ∀ p ∈ d.pairs, ReadablePair p
  tensors : ∀ p ∈ placed 0 d.tensors, p.1.Readable p.2
  total : (totalWithAll 0 d.tensors).isSome = true
  length_pairs : d.pairs.length < 2 ^ 64
  length_tensors : d.tensors.length < 2 ^ 64

instance (d : Draft) : Decidable d.Readable :=
  decidable_of_iff ((∀ p ∈ d.pairs, Draft.ReadablePair p) ∧ (∀ p ∈ Draft.placed 0 d.tensors, p.1.Readable p.2) ∧
      (Draft.totalWithAll 0 d.tensors).isSome = true ∧ d.pairs.length < 2 ^ 64 ∧ d.tensors.length < 2 ^ 64)
    ⟨fun ⟨h₁, h₂, h₃, h₄, h₅⟩ => ⟨h₁, h₂, h₃, h₄, h₅⟩, fun ⟨h₁, h₂, h₃, h₄, h₅⟩ => ⟨h₁, h₂, h₃, h₄, h₅⟩⟩

/-- The metadata that is read back. -/
def Draft.metadata (d : Draft) : Metadata := d.pairs.foldl (fun m p => m.insert p.1 p.2.toMetadata) .empty

/-- The tensors that are read back. -/
def Draft.infos (d : Draft) : List TensorInfo := (placed 0 d.tensors).map fun p => p.1.info p.2

/-- **What stands before the tensors is read back**, and then the tensors are read. -/
theorem read_front {d : Draft} (hpairs : ∀ p ∈ d.pairs, Draft.ReadablePair p) (hpairCount : d.pairs.length < 2 ^ 64)
    (htensorCount : d.tensors.length < 2 ^ 64) (r : Bytes) : Header.read (d.header ++ r) =
    (readTensors d.tensors.length 0 []
      ((Draft.placed 0 d.tensors).flatMap (fun (t, offset) => Draft.writeInfo t offset) ++ r)).map fun p =>
        let size := (d.header ++ r).length - p.2.length
        (⟨3, d.metadata, p.1, Word.roundUp d.metadata.alignment size⟩, size) := by
  have hparts : d.header ++ r = Bytes.ofNat 4 magic ++ (Bytes.ofNat 4 3 ++ (Bytes.ofNat 8 d.tensors.length ++
      (Bytes.ofNat 8 d.pairs.length ++ (d.pairs.flatMap Draft.writePair ++
        ((Draft.placed 0 d.tensors).flatMap (fun (t, offset) => Draft.writeInfo t offset) ++ r))))) := by
    simp only [Draft.header, List.append_assoc]
  generalize (Draft.placed 0 d.tensors).flatMap (fun (t, offset) => Draft.writeInfo t offset) ++ r = infos at *
  have hfirst := reads_word32 (show magic < 2 ^ 32 by decide) (Bytes.ofNat 4 3 ++
    (Bytes.ofNat 8 d.tensors.length ++ (Bytes.ofNat 8 d.pairs.length ++ (d.pairs.flatMap Draft.writePair ++ infos))))
  rw [← hparts] at hfirst
  obtain ⟨h₁, hmagic⟩ := hfirst
  obtain ⟨h₂, hversion⟩ := reads_word32 (show 3 < 2 ^ 32 by decide) (Bytes.ofNat 8 d.tensors.length ++
    (Bytes.ofNat 8 d.pairs.length ++ (d.pairs.flatMap Draft.writePair ++ infos)))
  obtain ⟨h₃, htensors⟩ := reads_word64 htensorCount
    (Bytes.ofNat 8 d.pairs.length ++ (d.pairs.flatMap Draft.writePair ++ infos))
  obtain ⟨h₄, hcount⟩ := reads_word64 hpairCount (d.pairs.flatMap Draft.writePair ++ infos)
  have hmetadata := readPairs_append hpairs .empty infos
  unfold Header.read
  rw [hmagic, ok_bind]
  dsimp only
  rw [if_neg (fun hne => hne rfl), hversion, ok_bind]
  dsimp only
  rw [if_neg (by decide), htensors, ok_bind]
  dsimp only
  rw [hcount, ok_bind]
  dsimp only
  rw [hmetadata, ok_bind]
  cases readTensors d.tensors.length 0 [] infos <;> rfl

/-- **The header of a draft is read back** from its bytes, whatever comes behind them. -/
theorem read_header {d : Draft} (h : d.Readable) (r : Bytes) : Header.read (d.header ++ r) =
    .ok (⟨3, d.metadata, d.infos, Word.roundUp d.metadata.alignment d.header.length⟩, d.header.length) := by
  have hlen : (d.header ++ r).length - r.length = d.header.length := by
    rw [List.length_append, Nat.add_sub_cancel]
  rw [read_front h.pairs h.length_pairs h.length_tensors, readTensors_append h.tensors h.total]
  simp only [Except.map]
  rw [hlen]
  rfl

/-- **The header at the front of a draft's bytes.** -/
theorem parse_bytes {d : Draft} (h : d.Readable) : Header.parse d.bytes =
    .ok ⟨3, d.metadata, d.infos, Word.roundUp d.metadata.alignment d.header.length⟩ := by
  rw [Header.parse, Draft.bytes, Draft.padded, List.append_assoc, read_header h]
  rfl

/-- **A draft whose elements do not fit in a word is refused.** -/
theorem parse_bytes_of_overflow {d : Draft} (hpairs : ∀ p ∈ d.pairs, Draft.ReadablePair p)
    (htensors : ∀ p ∈ Draft.placed 0 d.tensors, p.1.Readable p.2) (hpairCount : d.pairs.length < 2 ^ 64)
    (htensorCount : d.tensors.length < 2 ^ 64) (hnone : Draft.totalWithAll 0 d.tensors = none) :
    ∃ t ∈ d.tensors, Header.parse d.bytes = .error t.overflow := by
  rw [Header.parse, Draft.bytes, Draft.padded, List.append_assoc, read_front hpairs hpairCount htensorCount]
  obtain ⟨t, ht, hrefused⟩ := readTensors_of_overflow htensors hnone []
    (List.replicate (Word.roundUp Draft.alignment d.header.length - d.header.length) 0 ++
      Draft.body 0 (Draft.placed 0 d.tensors))
  refine ⟨t, ht, ?_⟩
  rw [hrefused]
  rfl

end CausalLM.Container
