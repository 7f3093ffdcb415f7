import CausalLM.Decoder.Engine
import CausalLM.Proofs.Outcome
/-!
# Proofs.Cache — what a cache holds

The buffers of a cache have one size for good (`Shaped`); every operation keeps it.  What counts of a cache up to a
position is its `history`, the key and value rows of each layer.  Writing a row puts it behind the rows before it and
touches no other layer (`Wrote`), and loading rows layer by layer makes them the history (`history_loadRows`).
-/
namespace CausalLM

namespace Cache

/-! ## Buffers -/

/-- So many buffers of one size. -/
def Uniform (count size : Nat) (buffers : List Vec) : Prop := buffers.length = count ∧ ∀ b ∈ buffers, b.length = size

/-- The first `n` numbers of one of the buffers. -/
def front (buffers : List Vec) (layer n : Nat) : Vec := (buffers.getD layer []).take n

theorem Uniform.length_getD {count size layer : Nat} {buffers : List Vec} (h : Uniform count size buffers)
    (hl : layer < count) : (buffers.getD layer []).length = size := by
  have hlt : layer < buffers.length := h.1 ▸ hl
  rw [List.getD_eq_getElem?_getD, List.getElem?_eq_getElem hlt]
  exact h.2 _ (List.getElem_mem hlt)

theorem Uniform.length_front {count size layer n : Nat} {buffers : List Vec} (h : Uniform count size buffers)
    (hl : layer < count) (hn : n ≤ size) : (front buffers layer n).length = n := by
  rw [front, List.length_take, h.length_getD hl, Nat.min_eq_left hn]

theorem Uniform.modify {count size : Nat} {buffers : List Vec} (h : Uniform count size buffers) (layer : Nat)
    {f : Vec → Vec} (hf : ∀ b : Vec, b.length = size → (f b).length = size) :
    Uniform count size (buffers.modify layer f) := by
  refine ⟨by rw [List.length_modify, h.1], fun b hb => ?_⟩
  obtain ⟨i, hi, rfl⟩ := List.mem_iff_getElem.1 hb
  rw [List.getElem_modify]
  split
  · exact hf _ (h.2 _ (List.getElem_mem _))
  · exact h.2 _ (List.getElem_mem _)

theorem front_modify_ne {buffers : List Vec} {layer i : Nat} (h : layer ≠ i) (f : Vec → Vec) (n : Nat) :
    front (buffers.modify layer f) i n = front buffers i n := by
  simp [front, h]

theorem front_modify_self {buffers : List Vec} {layer : Nat} (h : layer < buffers.length) (f : Vec → Vec) (n : Nat) :
    front (buffers.modify layer f) layer n = (f (buffers.getD layer [])).take n := by
  simp [front, h]

theorem length_writeRow {position : Nat} {row buffer : Vec} (h : (position + 1) * row.length ≤ buffer.length) :
    (writeRow position row buffer).length = buffer.length := by
  rw [Nat.add_mul, Nat.one_mul] at h
  simp only [writeRow, List.length_append, List.length_take, List.length_drop]
  omega

theorem take_writeRow {position : Nat} {row buffer : Vec} (h : (position + 1) * row.length ≤ buffer.length) :
    (writeRow position row buffer).take ((position + 1) * row.length) = buffer.take (position * row.length) ++ row := by
  rw [Nat.add_mul, Nat.one_mul] at h ⊢
  have hlen : (buffer.take (position * row.length) ++ row).length = position * row.length + row.length := by
    rw [List.length_append, List.length_take]
    omega
  rw [writeRow, ← hlen, List.take_left]

theorem length_writeFront {rows buffer : Vec} (h : rows.length ≤ buffer.length) :
    (writeFront rows buffer).length = buffer.length := by
  simp only [writeFront, List.length_append, List.length_drop]
  omega

theorem take_writeFront (rows buffer : Vec) : (writeFront rows buffer).take rows.length = rows := by
  rw [writeFront, List.take_left]

/-! ## Shapes -/

/-- **The shape of a cache**: so many layers with room for so many rows of one width. -/
structure Shaped (layers rowWidth capacity : Nat) (c : Cache) : Prop where
  layerCount_eq : c.layerCount = layers
  rowWidth_eq : c.rowWidth = rowWidth
  capacity_eq : c.capacity = capacity
  keys_uniform : Uniform layers (rowWidth * capacity) c.keyBuffers
  values_uniform : Uniform layers (rowWidth * capacity) c.valueBuffers

variable {layers rowWidth capacity : Nat} {c c' : Cache}

theorem uniform_buffers {size : Nat} : ∀ {layers : Nat} {ks vs : List Vec}, buffers size layers = .ok (ks, vs) →
    Uniform layers size ks ∧ Uniform layers size vs
  | 0, ks, vs, h => by
    cases h
    exact ⟨⟨rfl, fun _ hb => by cases hb⟩, ⟨rfl, fun _ hb => by cases hb⟩⟩
  | layers + 1, ks, vs, h => by
    simp only [buffers, bind_eq_ok_iff] at h
    obtain ⟨k, hk, v, hv, ⟨ks', vs'⟩, hp, h⟩ := h
    cases h
    obtain ⟨ihk, ihv⟩ := uniform_buffers hp
    have hk' : k.length = size := by rw [Memory.zeros_eq_ok hk, List.length_replicate]
    have hv' : v.length = size := by rw [Memory.zeros_eq_ok hv, List.length_replicate]
    exact ⟨⟨congrArg (· + 1) ihk.1, List.forall_mem_cons.2 ⟨hk', ihk.2⟩⟩,
      ⟨congrArg (· + 1) ihv.1, List.forall_mem_cons.2 ⟨hv', ihv.2⟩⟩⟩

/-- A new cache has its shape where a buffer's size is a word. -/
theorem shaped_new (hsize : rowWidth * capacity ≤ Word.max64) (h : Cache.new layers rowWidth capacity = .ok c) :
    c.Shaped layers rowWidth capacity := by
  simp only [Cache.new, Word.wrapMul_of_le hsize, bind_eq_ok_iff] at h
  obtain ⟨⟨ks, vs⟩, hp, h⟩ := h
  cases h
  obtain ⟨hk, hv⟩ := uniform_buffers hp
  exact ⟨rfl, rfl, rfl, hk, hv⟩

theorem Shaped.commit (h : c.Shaped layers rowWidth capacity) (n : Nat) :
    (c.commit n).Shaped layers rowWidth capacity :=
  ⟨h.1, h.2, h.3, h.4, h.5⟩

theorem Shaped.clear (h : c.Shaped layers rowWidth capacity) : c.clear.Shaped layers rowWidth capacity :=
  ⟨h.1, h.2, h.3, h.4, h.5⟩

theorem mul_le_size {n : Nat} (hn : n ≤ capacity) : n * rowWidth ≤ rowWidth * capacity := by
  rw [Nat.mul_comm rowWidth]
  exact Nat.mul_le_mul_right _ hn

theorem Shaped.length_keys (h : c.Shaped layers rowWidth capacity) {layer n : Nat} (hl : layer < layers)
    (hn : n ≤ capacity) : (c.keys layer n).length = n * rowWidth := by
  have hle : n * rowWidth ≤ rowWidth * capacity := mul_le_size hn
  rw [← h.keys_uniform.length_front hl hle, ← h.rowWidth_eq]
  rfl

theorem Shaped.length_values (h : c.Shaped layers rowWidth capacity) {layer n : Nat} (hl : layer < layers)
    (hn : n ≤ capacity) : (c.values layer n).length = n * rowWidth := by
  have hle : n * rowWidth ≤ rowWidth * capacity := mul_le_size hn
  rw [← h.values_uniform.length_front hl hle, ← h.rowWidth_eq]
  rfl

/-! ## Histories -/

/-- The key and value rows of the first `n` positions, of `count` layers from layer `i` on. -/
def rowsFrom (c : Cache) (n i count : Nat) : List (Vec × Vec) :=
  (List.range' i count).map fun layer => (c.keys layer n, c.values layer n)

/-- **The history in a cache**: per layer the key and value rows of the first `n` positions. -/
def history (c : Cache) (n : Nat) : List (Vec × Vec) := c.rowsFrom n 0 c.layerCount

theorem rowsFrom_succ (c : Cache) (n i count : Nat) :
    c.rowsFrom n i (count + 1) = (c.keys i n, c.values i n) :: c.rowsFrom n (i + 1) count := by
  rw [rowsFrom, List.range'_succ, List.map_cons]
  rfl

@[simp] theorem length_rowsFrom (c : Cache) (n i count : Nat) : (c.rowsFrom n i count).length = count := by
  simp [rowsFrom]

theorem rowsFrom_congr {n i count : Nat} (hk : ∀ j, i ≤ j → c.keys j n = c'.keys j n)
    (hv : ∀ j, i ≤ j → c.values j n = c'.values j n) : c.rowsFrom n i count = c'.rowsFrom n i count := by
  refine List.map_congr_left fun j hj => ?_
  obtain ⟨hij, -⟩ := List.mem_range'_1.1 hj
  rw [hk j hij, hv j hij]

/-- **What writing a row does**: it goes behind the rows before it, and the other layers stay. -/
structure Wrote (c : Cache) (layer position : Nat) (key value : Vec) (c' : Cache) : Prop where
  keys_self : c'.keys layer (position + 1) = c.keys layer position ++ key
  values_self : c'.values layer (position + 1) = c.values layer position ++ value
  keys_ne : ∀ i, layer ≠ i → ∀ n, c'.keys i n = c.keys i n
  values_ne : ∀ i, layer ≠ i → ∀ n, c'.values i n = c.values i n
  length_eq : c'.length = c.length

/-- **A row of the right width is written** wherever there is room. -/
theorem exists_write (h : c.Shaped layers rowWidth capacity) {layer position : Nat} {key value : Vec}
    (hl : layer < layers) (hp : position < capacity) (hk : key.length = rowWidth) (hv : value.length = rowWidth) :
    ∃ c', c.write layer position key value = .ok c' ∧ c'.Shaped layers rowWidth capacity ∧
      c.Wrote layer position key value c' := by
  obtain ⟨hlayers, hwidth, hcapacity, hkeys, hvalues⟩ := h
  have hroom : (position + 1) * rowWidth ≤ rowWidth * capacity := mul_le_size hp
  have hkroom : (position + 1) * key.length ≤ (c.keyBuffers.getD layer []).length := by
    rwa [hk, hkeys.length_getD hl]
  have hvroom : (position + 1) * value.length ≤ (c.valueBuffers.getD layer []).length := by
    rwa [hv, hvalues.length_getD hl]
  refine ⟨{ c with
    keyBuffers := c.keyBuffers.modify layer (writeRow position key)
    valueBuffers := c.valueBuffers.modify layer (writeRow position value) }, ?_, ?_, ?_⟩
  · rw [write, if_neg (by omega), if_neg (by omega), if_neg (by omega)]
  · refine ⟨hlayers, hwidth, hcapacity, hkeys.modify layer fun b hb => ?_, hvalues.modify layer fun b hb => ?_⟩
    · rw [length_writeRow (by rwa [hk, hb]), hb]
    · rw [length_writeRow (by rwa [hv, hb]), hb]
  · refine ⟨?_, ?_, fun i hi n => front_modify_ne hi _ _, fun i hi n => front_modify_ne hi _ _, rfl⟩
    · have := take_writeRow hkroom
      rw [hk, ← hwidth] at this
      exact (front_modify_self (by rw [hkeys.1]; exact hl) _ _).trans this
    · have := take_writeRow hvroom
      rw [hv, ← hwidth] at this
      exact (front_modify_self (by rw [hvalues.1]; exact hl) _ _).trans this

/-- Rows of whole positions that fit are loaded; the other layers stay. -/
theorem exists_loadFront (h : c.Shaped layers rowWidth capacity) {layer n : Nat} {ks vs : Vec} (hl : layer < layers)
    (hn : n ≤ capacity) (hk : ks.length = n * rowWidth) (hv : vs.length = n * rowWidth) :
    ∃ c', c.loadFront layer ks vs = .ok c' ∧ c'.Shaped layers rowWidth capacity ∧
      c'.keys layer n = ks ∧ c'.values layer n = vs ∧
      (∀ i, layer ≠ i → ∀ m, c'.keys i m = c.keys i m) ∧ (∀ i, layer ≠ i → ∀ m, c'.values i m = c.values i m) := by
  obtain ⟨hlayers, hwidth, hcapacity, hkeys, hvalues⟩ := h
  have hroom : n * rowWidth ≤ rowWidth * capacity := mul_le_size hn
  have hwhole : ks.length % max c.rowWidth 1 = 0 := by
    rw [hk, hwidth]
    rcases Nat.eq_zero_or_pos rowWidth with rfl | hpos
    · rfl
    · rw [Nat.max_eq_left hpos, Nat.mul_mod_left]
  have hfits : ks.length ≤ (c.keyBuffers.getD layer []).length := by rwa [hk, hkeys.length_getD hl]
  refine ⟨{ c with
    keyBuffers := c.keyBuffers.modify layer (writeFront ks)
    valueBuffers := c.valueBuffers.modify layer (writeFront vs) }, ?_, ?_, ?_, ?_, ?_, ?_⟩
  · rw [loadFront, if_neg (by omega)]
  · refine ⟨hlayers, hwidth, hcapacity, hkeys.modify layer fun b hb => ?_, hvalues.modify layer fun b hb => ?_⟩
    · rw [length_writeFront (by rwa [hk, hb]), hb]
    · rw [length_writeFront (by rwa [hv, hb]), hb]
  · refine (front_modify_self (by rw [hkeys.1]; exact hl) _ _).trans ?_
    rw [show n * c.rowWidth = ks.length by rw [hk, hwidth], take_writeFront]
  · refine (front_modify_self (by rw [hvalues.1]; exact hl) _ _).trans ?_
    rw [show n * c.rowWidth = vs.length by rw [hv, hwidth], take_writeFront]
  · exact fun i hi m => front_modify_ne hi _ _
  · exact fun i hi m => front_modify_ne hi _ _

/-- **Loading the rows of all layers from some layer on** makes them the history of these layers. -/
theorem exists_loadRows {n : Nat} (hn : n ≤ capacity) : ∀ (rows : List (Vec × Vec)) (i : Nat) {c : Cache},
    c.Shaped layers rowWidth capacity → i + rows.length ≤ layers →
    (∀ r ∈ rows, r.1.length = n * rowWidth ∧ r.2.length = n * rowWidth) →
    ∃ c', Decoder.Evaluation.loadRows i rows c = (.ok (), c') ∧ c'.Shaped layers rowWidth capacity ∧
      c'.rowsFrom n i rows.length = rows ∧
      (∀ j < i, ∀ m, c'.keys j m = c.keys j m) ∧ (∀ j < i, ∀ m, c'.values j m = c.values j m)
  | [], i, c, h, _, _ => ⟨c, rfl, h, rfl, fun _ _ _ => rfl, fun _ _ _ => rfl⟩
  | (ks, vs) :: rest, i, c, h, hi, hrows => by
    rw [List.length_cons] at hi
    obtain ⟨⟨hks, hvs⟩, hrest⟩ := List.forall_mem_cons.1 hrows
    obtain ⟨c₁, hload, h₁, hkeys, hvalues, hkne, hvne⟩ := exists_loadFront h (show i < layers by omega) hn hks hvs
    obtain ⟨c₂, hloads, h₂, hfrom, hklt, hvlt⟩ := exists_loadRows hn rest (i + 1) h₁ (by omega) hrest
    -- this layer lies before those loaded after it, so what was loaded into it stays
    refine ⟨c₂, ?_, h₂, ?_, fun j hj m => ?_, fun j hj m => ?_⟩
    · rw [Decoder.Evaluation.loadRows, hload]
      exact hloads
    · rw [List.length_cons, rowsFrom_succ, hfrom, hklt i (Nat.lt_succ_self i), hvlt i (Nat.lt_succ_self i), hkeys,
        hvalues]
    · rw [hklt j (Nat.lt_succ_of_lt hj), hkne j (Nat.ne_of_gt hj)]
    · rw [hvlt j (Nat.lt_succ_of_lt hj), hvne j (Nat.ne_of_gt hj)]

/-- Loading a row pair for every layer makes them the history. -/
theorem history_loadRows (h : c.Shaped layers rowWidth capacity) {n : Nat} (hn : n ≤ capacity)
    {rows : List (Vec × Vec)} (hlen : rows.length = layers)
    (hrows : ∀ r ∈ rows, r.1.length = n * rowWidth ∧ r.2.length = n * rowWidth) :
    ∃ c', Decoder.Evaluation.loadRows 0 rows c = (.ok (), c') ∧ c'.Shaped layers rowWidth capacity ∧
      c'.history n = rows := by
  obtain ⟨c', hload, h', hfrom, -, -⟩ := exists_loadRows hn rows 0 h (by omega) hrows
  refine ⟨c', hload, h', ?_⟩
  rw [history, h'.layerCount_eq, ← hlen, hfrom]

end Cache
end CausalLM
