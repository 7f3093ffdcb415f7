import CausalLM.WeightStore
import CausalLM.Proofs.Bytes
import CausalLM.Proofs.Dictionary
import CausalLM.Proofs.Container.Counts
import CausalLM.Proofs.Container.RoundTrip
import CausalLM.Proofs.Number.Widening
import Mathlib.Algebra.BigOperators.Ring.List
/-!
# Proofs.WeightStore — what is in memory is what stands in the file

A load goes through the tensors of a header in order and checks each range against the file as it is now.  It succeeds
exactly when every tensor has a readable type and lies in the file, and then each name has the tensor of the last
description with it, every value read from the bytes at its place (`load_of_parse`).
-/
namespace CausalLM.WeightStore

open Container (Header TensorInfo ElementType Draft)

variable {file raw : Bytes} {offset : Nat} {info : TensorInfo} {t : Tensor} {s s' : WeightStore}

/-! ## One tensor -/

/-- **A value is that of the bytes of an element**: of binary32 bit by bit, of a narrower format the same number. -/
def Denotes : ElementType → Bytes → Single → Prop
  | .f32, b, x => x.bits.toNat = Bytes.toNat b
  | .f16, b, x => x = Half.toSingle (.ofNat (Bytes.toNat b)) ∧ x.number = Half.number (.ofNat (Bytes.toNat b))
  | .bf16, b, x => x = Half.ofBrain (.ofNat (Bytes.toNat b)) ∧ x.number = Half.brainNumber (.ofNat (Bytes.toNat b))
  | _, _, _ => False

/-- **A tensor that can be loaded**: of a type that can be read, and in the file. -/
structure Loadable (file : Bytes) (offset : Nat) (info : TensorInfo) : Prop where
  type : info.type = .f32 ∨ info.type = .f16 ∨ info.type = .bf16
  inside : offset + info.offset + info.bytes ≤ file.length

/-- **The tensor in memory holds what the file has for its description.** -/
structure Holds (file : Bytes) (offset : Nat) (info : TensorInfo) (t : Tensor) : Prop where
  dims : t.dims = info.dims
  storage : t.storage.name = info.type.name
  size : t.data.size = info.elements
  /-- The bytes of the elements are all in the file. -/
  inside : offset + info.offset + info.elements * info.type.blockBytes ≤ file.length
  values : ∀ i < info.elements, ∃ x, t.data[i]? = some x ∧
    Denotes info.type ((file.drop (offset + info.offset + i * info.type.blockBytes)).take info.type.blockBytes) x

theorem of_slice_eq_ok (h : slice file offset info = .ok raw) :
    offset + info.offset + info.bytes ≤ file.length ∧ raw = (file.drop (offset + info.offset)).take info.bytes := by
  unfold slice at h
  split at h
  · cases h
  rename_i start hstart
  obtain ⟨rfl, -⟩ := Word.checked_eq_some_iff.1 hstart
  split at h
  · cases h
  rename_i stop hstop
  obtain ⟨rfl, -⟩ := Word.checked_eq_some_iff.1 hstop
  obtain ⟨hinside, h⟩ := guard_eq_ok_iff.1 h
  cases h
  exact ⟨Nat.le_of_not_lt hinside, rfl⟩

theorem slice_eq_ok_iff (hfile : file.length ≤ Word.max64) : slice file offset info = .ok raw ↔
    offset + info.offset + info.bytes ≤ file.length ∧ raw = (file.drop (offset + info.offset)).take info.bytes := by
  refine ⟨of_slice_eq_ok, fun ⟨hinside, hraw⟩ => ?_⟩
  -- no sum leaves the words, as the file does not
  have hstart : Word.checkedAdd offset info.offset = some (offset + info.offset) :=
    Word.checked_eq_some_iff.2 ⟨rfl, by omega⟩
  have hstop : Word.checkedAdd (offset + info.offset) info.bytes = some (offset + info.offset + info.bytes) :=
    Word.checked_eq_some_iff.2 ⟨rfl, by omega⟩
  rw [slice, hstart]
  dsimp only
  rw [hstop]
  exact guard_eq_ok_iff.2 ⟨Nat.not_lt.2 hinside, congrArg Except.ok hraw.symm⟩

theorem of_slice_eq_error {e : Error} (h : slice file offset info = .error e) : ∃ why, e = .formatMismatch why := by
  unfold slice at h
  split at h
  · cases h
    exact ⟨_, rfl⟩
  split at h
  · cases h
    exact ⟨_, rfl⟩
  split at h
  · cases h
    exact ⟨_, rfl⟩
  · cases h

theorem length_groups (width : Nat) : ∀ (n : Nat) (b : Bytes), (groups width n b).length = n
  | 0, _ => rfl
  | n + 1, _ => congrArg (· + 1) (length_groups width n _)

theorem getElem?_groups (width : Nat) : ∀ {n i : Nat} (b : Bytes), i < n →
    (groups width n b)[i]? = some ((b.drop (i * (width + 1))).take (width + 1))
  | n + 1, 0, b, h => by rw [groups, List.getElem?_cons_zero, Nat.zero_mul, List.drop_zero]
  | n + 1, i + 1, b, h => by
    rw [groups, List.getElem?_cons_succ, getElem?_groups width _ (Nat.lt_of_succ_lt_succ h), List.drop_drop,
      Nat.succ_mul, Nat.add_comm (i * (width + 1))]

/-- What the table of readable types says of each. -/
theorem of_reader? {type : ElementType} {storage : Storage} {width : Nat} {value : Bytes → Single}
    (h : reader? type = some (storage, width, value)) : storage.name = type.name ∧ type.blockSize = 1 ∧
      type.blockBytes = width + 1 ∧ width < 4 ∧ ∀ b : Bytes, b.length = width + 1 → Denotes type b (value b) := by
  cases type <;> cases h
  · refine ⟨rfl, rfl, rfl, by decide, fun b hb => ?_⟩
    have hlt := Bytes.toNat_lt b
    rw [hb] at hlt
    rw [Denotes, UInt32.toNat_ofNat', Nat.mod_eq_of_lt hlt]
  · exact ⟨rfl, rfl, rfl, by decide, fun b _ => ⟨rfl, Half.number_toSingle _⟩⟩
  · exact ⟨rfl, rfl, rfl, by decide, fun b _ => ⟨rfl, Half.number_ofBrain _⟩⟩

theorem exists_reader_iff {type : ElementType} :
    (∃ storage width value, reader? type = some (storage, width, value)) ↔ type = .f32 ∨ type = .f16 ∨ type = .bf16 := by
  constructor
  · rintro ⟨storage, width, value, h⟩
    cases type <;> cases h <;> decide
  · rintro (rfl | rfl | rfl) <;> exact ⟨_, _, _, rfl⟩

/-- The size of a tensor in the file, if a word holds that of its values in binary32. -/
theorem bytes_eq {storage : Storage} {width : Nat} {value : Bytes → Single}
    (h : reader? info.type = some (storage, width, value)) (hfits : info.elements * 4 ≤ Word.max64) :
    info.bytes = info.elements * (width + 1) := by
  obtain ⟨-, hsize, hbytes, hwidth, -⟩ := of_reader? h
  have hle : info.elements * (width + 1) ≤ info.elements * 4 := Nat.mul_le_mul_left _ hwidth
  rw [TensorInfo.bytes, ElementType.bytesFor, Word.ceilDiv, hsize, hbytes, Nat.add_sub_cancel, Nat.div_one,
    Word.satMul_of_le (by omega)]

/-- The bytes of one element among those of a tensor. -/
theorem take_drop_element {start bytes n k i : Nat} (hbytes : bytes = n * k) (hi : i < n) :
    ((((file.drop start).take bytes).drop (i * k)).take k) = (file.drop (start + i * k)).take k := by
  have hle : i * k + k ≤ bytes := by
    rw [hbytes, ← Nat.succ_mul]
    exact Nat.mul_le_mul_right k hi
  rw [List.drop_take, List.take_take, List.drop_drop, Nat.min_eq_left (by omega)]

theorem length_element {start n k i : Nat} (hinside : start + n * k ≤ file.length) (hi : i < n) :
    ((file.drop (start + i * k)).take k).length = k := by
  have hle : i * k + k ≤ n * k := by
    rw [← Nat.succ_mul]
    exact Nat.mul_le_mul_right k hi
  rw [List.length_take, List.length_drop]
  omega

theorem of_decode (h : decode info raw = .ok t) : t.dims = info.dims ∧ t.data.size = info.elements ∧
    Memory.fits info.elements = true := by
  obtain ⟨buffer, hbuffer, h⟩ := bind_eq_ok_iff.1 h
  split at h
  · cases h
  cases h
  refine ⟨rfl, ?_, Memory.fits_of_zeros hbuffer⟩
  rw [List.size_toArray, Vec.length_overlay, Memory.zeros_eq_ok hbuffer, List.length_replicate]

/-- **A tensor that lies in the file is decoded from there**: no value of the buffer stays as it was. -/
theorem holds_of_decode (hfits : info.elements * 4 ≤ Word.max64)
    (hinside : offset + info.offset + info.bytes ≤ file.length)
    (h : decode info ((file.drop (offset + info.offset)).take info.bytes) = .ok t) : Holds file offset info t := by
  obtain ⟨-, hsize, -⟩ := of_decode h
  obtain ⟨buffer, hbuffer, h⟩ := bind_eq_ok_iff.1 h
  split at h
  · cases h
  rename_i storage width value hreader
  cases h
  obtain ⟨hname, -, hblock, -, hvalue⟩ := of_reader? hreader
  have hbytes := bytes_eq hreader hfits
  have hinside' := hinside
  rw [hbytes] at hinside'
  have hcount : ((file.drop (offset + info.offset)).take info.bytes).length / (width + 1) = info.elements := by
    rw [List.length_take, List.length_drop, Nat.min_eq_left (by omega), hbytes,
      Nat.mul_div_cancel _ (Nat.succ_pos width)]
  have hbuffer : buffer.length = info.elements := by rw [Memory.zeros_eq_ok hbuffer, List.length_replicate]
  have hover : Vec.overlay ((groups width info.elements ((file.drop (offset + info.offset)).take info.bytes)).map value)
      buffer = (groups width info.elements ((file.drop (offset + info.offset)).take info.bytes)).map value :=
    Vec.overlay_eq_of_length_eq (by rw [List.length_map, length_groups, hbuffer])
  refine ⟨rfl, hname, hsize, by rwa [hblock], fun i hi => ?_⟩
  rw [hcount, hover]
  refine ⟨value ((file.drop (offset + info.offset + i * (width + 1))).take (width + 1)), ?_, ?_⟩
  · rw [List.getElem?_toArray, List.getElem?_map, getElem?_groups width _ hi, take_drop_element hbytes hi]
    rfl
  · rw [hblock]
    exact hvalue _ (length_element hinside' hi)

/-! ## All tensors -/

theorem exists_decode (hreader : info.type = .f32 ∨ info.type = .f16 ∨ info.type = .bf16)
    (hmemory : Memory.fits info.elements = true) (raw : Bytes) : ∃ t, decode info raw = .ok t := by
  obtain ⟨storage, width, value, hreader⟩ := exists_reader_iff.2 hreader
  rw [decode, Memory.zeros, if_pos hmemory, ok_bind, hreader]
  exact ⟨_, rfl⟩

theorem of_decode_eq_error {e : Error} (hmemory : Memory.fits info.elements = true) (h : decode info raw = .error e) :
    ¬(info.type = .f32 ∨ info.type = .f16 ∨ info.type = .bf16) ∧ ∃ why, e = .formatMismatch why := by
  refine ⟨fun htype => ?_, ?_⟩
  · obtain ⟨t, ht⟩ := exists_decode htype hmemory raw
    rw [ht] at h
    cases h
  · rw [decode, Memory.zeros, if_pos hmemory, ok_bind] at h
    split at h
    · cases h
      exact ⟨_, rfl⟩
    · cases h

theorem type_of_decode (h : decode info raw = .ok t) : info.type = .f32 ∨ info.type = .f16 ∨ info.type = .bf16 := by
  obtain ⟨buffer, -, h⟩ := bind_eq_ok_iff.1 h
  split at h
  · cases h
  · rename_i storage width value hreader
    exact exists_reader_iff.1 ⟨storage, width, value, hreader⟩

/-- **A load puts the tensors in one after the other**, each read from the file. -/
theorem exists_loaded : ∀ {infos : List TensorInfo} {s s' : WeightStore}, loadInto file offset s infos = .ok s' →
    ∃ loaded : List (TensorInfo × Tensor), loaded.map Prod.fst = infos ∧
      (∀ p ∈ loaded, ∃ raw, slice file offset p.1 = .ok raw ∧ decode p.1 raw = .ok p.2) ∧
      s'.tensors = s.tensors.insertAll (loaded.map fun p => (p.1.name, p.2)) ∧
      s'.residentBytes = s.residentBytes + (loaded.map fun p => p.2.bytes).sum ∧ s'.mappedBytes = s.mappedBytes
  | [], s, s', h => by
    cases h
    exact ⟨[], rfl, fun _ hp => (by cases hp), rfl, rfl, rfl⟩
  | info :: infos, s, s', h => by
    obtain ⟨raw, hraw, h⟩ := bind_eq_ok_iff.1 h
    obtain ⟨t, ht, h⟩ := bind_eq_ok_iff.1 h
    obtain ⟨loaded, rfl, hloaded, htensors, hresident, hmapped⟩ := exists_loaded h
    refine ⟨(info, t) :: loaded, rfl, List.forall_mem_cons.2 ⟨⟨raw, hraw, ht⟩, hloaded⟩, htensors, ?_, hmapped⟩
    rw [hresident, List.map_cons, List.sum_cons, Nat.add_assoc]

/-- What was put in under a name last, and what was described last. -/
theorem get?_insertAll_loaded (loaded : List (TensorInfo × Tensor)) (d : Dictionary Tensor) (name : String) :
    (d.insertAll (loaded.map fun p => (p.1.name, p.2))).get? name =
        ((loaded.reverse.find? (·.1.name == name)).map Prod.snd).or (d.get? name) ∧
      (loaded.map Prod.fst).reverse.find? (·.name == name) = (loaded.reverse.find? (·.1.name == name)).map Prod.fst := by
  rw [Dictionary.get?_insertAll, ← List.map_reverse, ← List.map_reverse, List.find?_map, List.find?_map, Option.map_map]
  exact ⟨rfl, rfl⟩

/-- **A load that succeeds found every tensor**, and has under each name the last one described. -/
theorem of_loadInto (hfile : file.length ≤ Word.max64) {infos : List TensorInfo}
    (hfits : ∀ info ∈ infos, info.elements * 4 ≤ Word.max64) (h : loadInto file offset s infos = .ok s') :
    (∀ info ∈ infos, Loadable file offset info) ∧ ∀ name,
      (∀ info, infos.reverse.find? (·.name == name) = some info →
        ∃ t, s'.get? name = some t ∧ Holds file offset info t) ∧
      (infos.reverse.find? (·.name == name) = none → s'.get? name = s.get? name) := by
  obtain ⟨loaded, rfl, hloaded, htensors, -⟩ := exists_loaded h
  have hread : ∀ p ∈ loaded, Loadable file offset p.1 ∧ Holds file offset p.1 p.2 := fun p hp => by
    obtain ⟨raw, hraw, hdecode⟩ := hloaded p hp
    obtain ⟨hinside, rfl⟩ := (slice_eq_ok_iff hfile).1 hraw
    exact ⟨⟨type_of_decode hdecode, hinside⟩, holds_of_decode (hfits _ (List.mem_map_of_mem hp)) hinside hdecode⟩
  refine ⟨fun info hinfo => ?_, fun name => ?_⟩
  · obtain ⟨p, hp, rfl⟩ := List.mem_map.1 hinfo
    exact (hread p hp).1
  · obtain ⟨hget, hlast⟩ := get?_insertAll_loaded loaded s.tensors name
    rw [get?, htensors, hget, hlast]
    cases hfind : loaded.reverse.find? (·.1.name == name) with
    | none => exact ⟨fun _ hinfo => (by cases hinfo), fun _ => rfl⟩
    | some p =>
      refine ⟨fun info hinfo => ?_, fun hnone => by cases hnone⟩
      cases hinfo
      exact ⟨p.2, rfl, (hread p (List.mem_reverse.1 (List.mem_of_find?_eq_some hfind))).2⟩

/-- **A load that fails refuses a tensor**, and its format is the reason. -/
theorem of_loadInto_eq_error (hfile : file.length ≤ Word.max64) {e : Error} : ∀ {infos : List TensorInfo}
    {s : WeightStore}, (∀ info ∈ infos, offset + info.offset + info.bytes ≤ file.length →
      Memory.fits info.elements = true) → loadInto file offset s infos = .error e →
    (∃ info ∈ infos, ¬Loadable file offset info) ∧ ∃ why, e = .formatMismatch why
  | [], s, _, h => by cases h
  | info :: infos, s, hmemory, h => by
    obtain ⟨hinfo, hinfos⟩ := List.forall_mem_cons.1 hmemory
    rcases bind_eq_error_iff.1 h with hslice | ⟨raw, hraw, h⟩
    · refine ⟨⟨info, List.mem_cons_self, fun hload => ?_⟩, of_slice_eq_error hslice⟩
      rw [(slice_eq_ok_iff hfile).2 ⟨hload.inside, rfl⟩] at hslice
      cases hslice
    obtain ⟨hinside, -⟩ := (slice_eq_ok_iff hfile).1 hraw
    rcases bind_eq_error_iff.1 h with hdecode | ⟨t, -, h⟩
    · obtain ⟨htype, hwhy⟩ := of_decode_eq_error (hinfo hinside) hdecode
      exact ⟨⟨info, List.mem_cons_self, fun hload => htype hload.type⟩, hwhy⟩
    · obtain ⟨⟨other, hother, hload⟩, hwhy⟩ := of_loadInto_eq_error hfile hinfos h
      exact ⟨⟨other, List.mem_cons_of_mem _ hother, hload⟩, hwhy⟩

/-- What a load accounts for: every tensor that was described, also under a name that is there already. -/
theorem resident_of_loadInto {infos : List TensorInfo} (h : loadInto file offset s infos = .ok s') :
    s'.residentBytes = s.residentBytes + (infos.map TensorInfo.elements).sum * Memory.singleBytes ∧
      s'.mappedBytes = s.mappedBytes := by
  obtain ⟨loaded, rfl, hloaded, -, hresident, hmapped⟩ := exists_loaded h
  have hbytes : (loaded.map fun p => p.2.bytes) = loaded.map fun p => p.1.elements * Memory.singleBytes :=
    List.map_congr_left fun p hp => by
      obtain ⟨raw, -, hdecode⟩ := hloaded p hp
      obtain ⟨-, hsize, -⟩ := of_decode hdecode
      rw [Tensor.bytes, hsize]
  rw [hresident, hbytes, List.sum_map_mul_right, List.map_map]
  exact ⟨rfl, hmapped⟩

/-- **Loading is exact and bounded**, whatever the file holds by the time of the load.  A parsed header is loaded exactly
when every tensor has a readable type and lies in the file; otherwise the format is refused.  No range that is read
reaches out of the file.  Each name has the tensor that the last description with it describes. -/
theorem load_of_parse {source file : Bytes} {header : Header} (hparse : Header.parse source = .ok header)
    (hfile : file.length ≤ Word.max64)
    (hmemory : ∀ info ∈ header.tensors, header.dataOffset + info.offset + info.bytes ≤ file.length →
      Memory.fits info.elements = true) :
    ((∃ s, load file header = .ok s) ↔ ∀ info ∈ header.tensors, Loadable file header.dataOffset info) ∧
      (∀ e, load file header = .error e → ∃ why, e = .formatMismatch why) ∧
      (∀ info ∈ header.tensors, ∀ raw, slice file header.dataOffset info = .ok raw →
        header.dataOffset + info.offset + info.bytes ≤ file.length ∧ raw.length = info.bytes) ∧
      (∀ info ∈ header.tensors, info.elements = info.dims.prod) ∧
      ∀ s, load file header = .ok s → ∀ name,
        Option.Rel (Holds file header.dataOffset) (header.tensors.reverse.find? (·.name == name)) (s.get? name) := by
  obtain ⟨hexact, -⟩ := Header.exact_of_parse hparse
  have hfits : ∀ info ∈ header.tensors, info.elements * 4 ≤ Word.max64 := fun info hinfo => by
    rw [hexact info hinfo]
    exact Header.count_le_of_parse hparse hinfo
  refine ⟨⟨?_, ?_⟩, ?_, ?_, hexact, ?_⟩
  · rintro ⟨s, hs⟩
    exact (of_loadInto hfile hfits hs).1
  · intro hall
    cases hload : load file header with
    | ok s => exact ⟨s, rfl⟩
    | error e =>
      obtain ⟨⟨info, hinfo, hnot⟩, -⟩ := of_loadInto_eq_error hfile hmemory hload
      exact absurd (hall info hinfo) hnot
  · intro e hload
    exact (of_loadInto_eq_error hfile hmemory hload).2
  · intro info _ raw hraw
    obtain ⟨hinside, rfl⟩ := (slice_eq_ok_iff hfile).1 hraw
    refine ⟨hinside, ?_⟩
    rw [List.length_take, List.length_drop]
    omega
  · intro s hload name
    obtain ⟨hsome, hnone⟩ := (of_loadInto hfile hfits hload).2 name
    cases hfind : header.tensors.reverse.find? (·.name == name) with
    | some info =>
      obtain ⟨t, ht, hholds⟩ := hsome info hfind
      rw [ht]
      exact .some hholds
    | none =>
      rw [hnone hfind]
      exact .none

/-- Two tensors of one name, and one in bfloat16. -/
def stored : Draft :=
  ⟨[], [.ofSingles "a" [2] [.one, .two], .ofHalves "a" [3] [.half, .two, .negZero], ⟨"b", [1], .bf16, [0x80, 0x3f]⟩]⟩

theorem load_of_parse_stored : ∃ header s, Header.parse stored.bytes = .ok header ∧
    load stored.bytes header = .ok s ∧ ∃ t, s.get? "a" = some t ∧ t.data.size = 3 := by
  have hparse := Container.parse_bytes (d := stored) (by decide)
  have hall : ∀ info ∈ stored.infos, (info.type = .f32 ∨ info.type = .f16 ∨ info.type = .bf16) ∧
      Word.roundUp stored.metadata.alignment stored.header.length + info.offset + info.bytes ≤ stored.bytes.length ∧
      Memory.fits info.elements = true := by
    decide +kernel
  obtain ⟨hiff, -, -, -, hnames⟩ := @load_of_parse stored.bytes stored.bytes _ hparse (by decide +kernel)
    fun info hinfo _ => (hall info hinfo).2.2
  obtain ⟨s, hs⟩ := hiff.2 fun info hinfo => ⟨(hall info hinfo).1, (hall info hinfo).2.1⟩
  refine ⟨_, s, hparse, hs, ?_⟩
  have hname := hnames s hs "a"
  have hlast : stored.infos.reverse.find? (·.name == "a") = some ⟨"a", [3], .f16, 32⟩ := by decide
  rw [hlast] at hname
  cases hget : s.get? "a" with
  | none =>
    rw [hget] at hname
    cases hname
  | some t =>
    rw [hget] at hname
    cases hname with
    | some hholds => exact ⟨t, rfl, hholds.size⟩

end CausalLM.WeightStore
