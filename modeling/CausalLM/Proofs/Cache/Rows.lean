import CausalLM.Proofs.Cache
import Mathlib.Data.List.Basic
import Mathlib.Data.List.Induction
/-!
# Proofs.Cache.Rows — a cache as a map of rows

To whoever calls it, a cache maps a layer and a position to a pair of rows: what a call that succeeds stores there
(`Call.stored?`) stays until the next one stores something there (`Shaped.row_run`).  Calls that fail, that go to other
places, or that change how many positions count, leave it as it was.  So keys and values are the rows last stored, row
after row (`rows_run_new`).

A cache changes the slices of its buffers in place and reads slices of them, and there is no answer where a slice does
not lie in its buffer (`copy?`, `front?`).  The slices of a cache always do (`Shaped.serves`).
-/
namespace CausalLM.Cache

/-! ## Rows of a buffer -/

/-- The row at a position of a buffer. -/
def rowAt (rowWidth position : Nat) (buffer : Vec) : Vec := (buffer.drop (position * rowWidth)).take rowWidth

/-- The key row and the value row at a position of a layer. -/
def row (c : Cache) (layer position : Nat) : Vec × Vec :=
  (rowAt c.rowWidth position (c.keyBuffers.getD layer []), rowAt c.rowWidth position (c.valueBuffers.getD layer []))

theorem writeRow_eq_splice (position : Nat) (row : Vec) :
    writeRow position row = splice (position * row.length) row := rfl

theorem writeFront_eq_splice (rows : Vec) : writeFront rows = splice 0 rows := by
  funext buffer
  rw [splice, List.take_zero, List.nil_append, Nat.zero_add, writeFront]

theorem length_splice {start : Nat} {rows buffer : Vec} (h : start + rows.length ≤ buffer.length) :
    (splice start rows buffer).length = buffer.length := by
  simp only [splice, List.length_append, List.length_take, List.length_drop]
  omega

/-- The front of a buffer is its first rows, one after the other. -/
theorem take_eq_flatMap_rowAt (rowWidth : Nat) (buffer : Vec) :
    ∀ n : Nat, buffer.take (n * rowWidth) = (List.range n).flatMap fun i => rowAt rowWidth i buffer
  | 0 => by rw [Nat.zero_mul, List.take_zero, List.range_zero, List.flatMap_nil]
  | n + 1 => by
    rw [Nat.add_mul, Nat.one_mul, List.take_add, take_eq_flatMap_rowAt rowWidth buffer n, List.range_succ,
      List.flatMap_append, List.flatMap_singleton, rowAt]

theorem rowAt_zero_of_length {rowWidth : Nat} {row : Vec} (h : row.length = rowWidth) : rowAt rowWidth 0 row = row := by
  rw [rowAt, Nat.zero_mul, List.drop_zero, ← h, List.take_length]

theorem getElem?_rowAt {rowWidth position : Nat} {buffer : Vec} {j : Nat} (hj : j < rowWidth) :
    (rowAt rowWidth position buffer)[j]? = buffer[position * rowWidth + j]? := by
  rw [rowAt, List.getElem?_take_of_lt hj, List.getElem?_drop]

theorem getElem?_rowAt_of_le {rowWidth position : Nat} {buffer : Vec} {j : Nat} (hj : rowWidth ≤ j) :
    (rowAt rowWidth position buffer)[j]? = none := by
  rw [rowAt, List.getElem?_take_eq_none hj]

theorem getElem?_splice {start : Nat} {rows buffer : Vec} (h : start + rows.length ≤ buffer.length) (m : Nat) :
    (splice start rows buffer)[m]? =
      if m < start ∨ start + rows.length ≤ m then buffer[m]? else rows[m - start]? := by
  have hstart : (buffer.take start).length = start := List.length_take_of_le (by omega)
  rw [splice, List.append_assoc]
  by_cases hm : m < start
  · rw [List.getElem?_append_left (by omega), List.getElem?_take_of_lt hm, if_pos (.inl hm)]
  rw [List.getElem?_append_right (by omega), hstart]
  by_cases hrows : m - start < rows.length
  · rw [List.getElem?_append_left hrows, if_neg (by omega)]
  · rw [List.getElem?_append_right (by omega), List.getElem?_drop, if_pos (.inr (by omega))]
    congr 1
    omega

/-- **Writing whole rows changes these rows**, and no other one. -/
theorem rowAt_splice {rowWidth first count : Nat} {rows buffer : Vec} (hrows : rows.length = count * rowWidth)
    (h : first * rowWidth + rows.length ≤ buffer.length) (i : Nat) :
    rowAt rowWidth i (splice (first * rowWidth) rows buffer) =
      if first ≤ i ∧ i < first + count then rowAt rowWidth (i - first) rows else rowAt rowWidth i buffer := by
  refine List.ext_getElem? fun j => ?_
  by_cases hj : j < rowWidth
  · have hstart : first * rowWidth + rows.length = (first + count) * rowWidth := by rw [hrows, Nat.add_mul]
    rw [apply_ite (fun row : Vec => row[j]?), getElem?_rowAt hj, getElem?_rowAt hj, getElem?_rowAt hj,
      getElem?_splice h, hstart]
    rcases Nat.lt_or_ge i first with hbefore | hfirst
    · have hle : (i + 1) * rowWidth ≤ first * rowWidth := Nat.mul_le_mul_right _ hbefore
      rw [Nat.add_mul, Nat.one_mul] at hle
      rw [if_pos (.inl (by omega)), if_neg (by omega)]
    rcases Nat.lt_or_ge i (first + count) with hlt | hafter
    · have hle : (i + 1) * rowWidth ≤ (first + count) * rowWidth := Nat.mul_le_mul_right _ hlt
      have hge : first * rowWidth ≤ i * rowWidth := Nat.mul_le_mul_right _ hfirst
      rw [Nat.add_mul, Nat.one_mul] at hle
      rw [if_neg (by omega), if_pos ⟨hfirst, hlt⟩, Nat.sub_mul]
      congr 1
      omega
    · have hge : (first + count) * rowWidth ≤ i * rowWidth := Nat.mul_le_mul_right _ hafter
      rw [if_pos (.inr (by omega)), if_neg (by omega)]
  · rw [apply_ite (fun row : Vec => row[j]?)]
    simp only [getElem?_rowAt_of_le (Nat.not_lt.1 hj), ite_self]

/-! ## Slices in place -/

theorem Uniform.getElem? {count size layer : Nat} {buffers : List Vec} (h : Uniform count size buffers)
    (hl : layer < count) : buffers[layer]? = some (buffers.getD layer []) := by
  have hlt : layer < buffers.length := h.1 ▸ hl
  rw [List.getD_eq_getElem?_getD, List.getElem?_eq_getElem hlt]
  rfl

theorem Uniform.front?_eq {count size layer n : Nat} {buffers : List Vec} (h : Uniform count size buffers)
    (hl : layer < count) (hn : n ≤ size) : front? buffers layer n = some (front buffers layer n) := by
  rw [front?, h.getElem? hl, Option.bind_eq_bind, Option.bind_some, if_pos (by rwa [h.length_getD hl]), front]

theorem Uniform.copy?_eq {count size layer start width : Nat} {buffers : List Vec} {rows : Vec}
    (h : Uniform count size buffers) (hl : layer < count) (hwidth : rows.length = width)
    (hroom : start + width ≤ size) :
    copy? buffers layer start (start + width) rows = some (buffers.modify layer (splice start rows)) := by
  rw [copy?, h.getElem? hl, Option.bind_eq_bind, Option.bind_some,
    if_pos ⟨Nat.le_add_right _ _, by rwa [h.length_getD hl], by rw [hwidth, Nat.add_sub_cancel_left]⟩,
    List.modify_eq_set, h.getElem? hl]
  rfl

variable {layers rowWidth capacity : Nat} {c : Cache}

section

variable (hsize : rowWidth * capacity ≤ Word.max64)

include hsize

theorem Shaped.wrapMul_eq (h : c.Shaped layers rowWidth capacity) {n : Nat} (hn : n ≤ capacity) :
    Word.wrapMul n c.rowWidth = n * c.rowWidth := by
  rw [h.rowWidth_eq]
  exact Word.wrapMul_of_le (Nat.le_trans (mul_le_size hn) hsize)

theorem Shaped.keys?_eq (h : c.Shaped layers rowWidth capacity) {layer n : Nat} (hl : layer < layers)
    (hn : n ≤ capacity) : c.keys? layer n = some (c.keys layer n) := by
  rw [keys?, h.wrapMul_eq hsize hn]
  exact h.keys_uniform.front?_eq hl (by rw [h.rowWidth_eq]; exact mul_le_size hn)

theorem Shaped.values?_eq (h : c.Shaped layers rowWidth capacity) {layer n : Nat} (hl : layer < layers)
    (hn : n ≤ capacity) : c.values? layer n = some (c.values layer n) := by
  rw [values?, h.wrapMul_eq hsize hn]
  exact h.values_uniform.front?_eq hl (by rw [h.rowWidth_eq]; exact mul_le_size hn)

end

theorem keys_eq_flatMap_row (c : Cache) (layer n : Nat) :
    c.keys layer n = (List.range n).flatMap fun i => (c.row layer i).1 := take_eq_flatMap_rowAt _ _ n

theorem values_eq_flatMap_row (c : Cache) (layer n : Nat) :
    c.values layer n = (List.range n).flatMap fun i => (c.row layer i).2 := take_eq_flatMap_rowAt _ _ n

/-! ## Calls -/

/-- What a call is answered and the cache it leaves; where it fails, the cache stays. -/
def attempt (c : Cache) : Except Error Cache → Except Error Unit × Cache
  | .ok c' => (.ok (), c')
  | .error e => (.error e, c)

def serve (c : Cache) : Call → Except Error Unit × Cache
  | .write layer position key value => c.attempt (c.write layer position key value)
  | .loadFront layer keys values => c.attempt (c.loadFront layer keys values)
  | .commit n => (.ok (), c.commit n)
  | .clear => (.ok (), c.clear)

/-- The cache after some calls. -/
def run (c : Cache) (calls : List Call) : Cache := calls.foldl (fun c call => (c.serve call).2) c

theorem run_append_singleton (c : Cache) (calls : List Call) (call : Call) :
    c.run (calls ++ [call]) = ((c.run calls).serve call).2 := by
  rw [run, List.foldl_append, List.foldl_cons, List.foldl_nil, run]

namespace Call

variable (layers rowWidth capacity layer position : Nat)

/-- What a cache of the shape does: the place is in it, and the rows are whole ones. -/
def Fits : Call → Prop
  | .write layer position key value =>
    layer < layers ∧ position < capacity ∧ key.length = rowWidth ∧ value.length = rowWidth
  | .loadFront layer keys values =>
    layer < layers ∧ keys.length = values.length ∧ rowWidth ∣ keys.length ∧ keys.length ≤ rowWidth * capacity
  | .commit _ => True
  | .clear => True

instance : DecidablePred (Fits layers rowWidth capacity)
  | .write .. => inferInstanceAs (Decidable (_ ∧ _))
  | .loadFront .. => inferInstanceAs (Decidable (_ ∧ _))
  | .commit _ => inferInstanceAs (Decidable True)
  | .clear => inferInstanceAs (Decidable True)

/-- The key row and the value row that a call has for a position of a layer. -/
def stored? : Call → Option (Vec × Vec)
  | .write l p key value => if l = layer ∧ p = position then some (key, value) else none
  | .loadFront l keys values =>
    if l = layer ∧ position < keys.length / rowWidth then
      some (rowAt rowWidth position keys, rowAt rowWidth position values)
    else none
  | .commit _ => none
  | .clear => none

/-- What was last stored at a position of a layer: the rows of the last call that has some and succeeds. -/
def lastStored? (calls : List Call) : Option (Vec × Vec) :=
  (calls.filter fun call => decide (call.Fits layers rowWidth capacity)).reverse.findSome?
    (stored? rowWidth layer position)

/-- **The rows last stored** at a position of a layer, and zeros before anything is stored there. -/
def lastRows (calls : List Call) : Vec × Vec :=
  (lastStored? layers rowWidth capacity layer position calls).getD
    (List.replicate rowWidth .zero, List.replicate rowWidth .zero)

variable {layers rowWidth capacity layer position}

theorem lastStored?_of_fits {call : Call} (h : call.Fits layers rowWidth capacity) (calls : List Call) :
    lastStored? layers rowWidth capacity layer position (calls ++ [call]) =
      (call.stored? rowWidth layer position).or (lastStored? layers rowWidth capacity layer position calls) := by
  have hlast : [call].filter (fun call => decide (call.Fits layers rowWidth capacity)) = [call] :=
    List.filter_cons_of_pos (decide_eq_true h)
  rw [lastStored?, List.filter_append, hlast, List.reverse_append, List.reverse_singleton, List.singleton_append,
    List.findSome?_cons]
  cases call.stored? rowWidth layer position <;> rfl

theorem lastStored?_of_not_fits {call : Call} (h : ¬call.Fits layers rowWidth capacity) (calls : List Call) :
    lastStored? layers rowWidth capacity layer position (calls ++ [call]) =
      lastStored? layers rowWidth capacity layer position calls := by
  have hlast : [call].filter (fun call => decide (call.Fits layers rowWidth capacity)) = [] :=
    List.filter_cons_of_neg (by simpa using h)
  rw [lastStored?, List.filter_append, hlast, List.append_nil, lastStored?]

end Call

/-! ## What one call does -/

/-- The cache with rows written over a layer from `start` on. -/
def spliced (c : Cache) (layer start : Nat) (keys values : Vec) : Cache :=
  { c with
    keyBuffers := c.keyBuffers.modify layer (splice start keys)
    valueBuffers := c.valueBuffers.modify layer (splice start values) }

/-- **Some whole rows and where they go** in a cache of the shape. -/
structure Placed (layers rowWidth capacity layer first count : Nat) (keys values : Vec) : Prop where
  layer_lt : layer < layers
  room : first + count ≤ capacity
  keys_length : keys.length = count * rowWidth
  values_length : values.length = count * rowWidth

section Placed

variable {layer first count : Nat} {keys values : Vec}

theorem Placed.le_size (h : Placed layers rowWidth capacity layer first count keys values) :
    first * rowWidth + count * rowWidth ≤ rowWidth * capacity := by
  rw [← Nat.add_mul]
  exact mul_le_size h.room

theorem Shaped.spliced (h : c.Shaped layers rowWidth capacity)
    (hrows : Placed layers rowWidth capacity layer first count keys values) :
    (c.spliced layer (first * rowWidth) keys values).Shaped layers rowWidth capacity := by
  have hsize := hrows.le_size
  refine ⟨h.layerCount_eq, h.rowWidth_eq, h.capacity_eq, h.keys_uniform.modify layer fun b hb => ?_,
    h.values_uniform.modify layer fun b hb => ?_⟩
  · rw [length_splice (by rwa [hb, hrows.keys_length]), hb]
  · rw [length_splice (by rwa [hb, hrows.values_length]), hb]

theorem Shaped.copyBoth?_eq (h : c.Shaped layers rowWidth capacity)
    (hrows : Placed layers rowWidth capacity layer first count keys values) :
    c.copyBoth? layer (first * rowWidth) (first * rowWidth + count * rowWidth) keys values =
      some (c.spliced layer (first * rowWidth) keys values) := by
  rw [copyBoth?, h.keys_uniform.copy?_eq hrows.layer_lt hrows.keys_length hrows.le_size,
    h.values_uniform.copy?_eq hrows.layer_lt hrows.values_length hrows.le_size]
  rfl

/-- One of the buffers of a layer, read as rows after rows went into it. -/
theorem rowAt_modify {buffers : List Vec} {rows : Vec} (h : Uniform layers (rowWidth * capacity) buffers)
    (hl : layer < layers) (hlength : rows.length = count * rowWidth)
    (hroom : first * rowWidth + count * rowWidth ≤ rowWidth * capacity) (i position : Nat) :
    rowAt rowWidth position ((buffers.modify layer (splice (first * rowWidth) rows)).getD i []) =
      if layer = i ∧ first ≤ position ∧ position < first + count then rowAt rowWidth (position - first) rows
      else rowAt rowWidth position (buffers.getD i []) := by
  by_cases hi : layer = i
  · subst hi
    have hbuffer : (buffers.modify layer (splice (first * rowWidth) rows)).getD layer [] =
        splice (first * rowWidth) rows (buffers.getD layer []) := by
      rw [List.getD_eq_getElem?_getD, List.getElem?_modify_eq, h.getElem? hl]
      rfl
    rw [hbuffer, rowAt_splice hlength (by rw [h.length_getD hl, hlength]; exact hroom)]
    simp only [true_and]
  · have hbuffer : (buffers.modify layer (splice (first * rowWidth) rows)).getD i [] = buffers.getD i [] := by
      simp [hi]
    rw [if_neg (fun hand => hi hand.1), hbuffer]

/-- **Rows that go to a layer are the rows there**, and the others stay. -/
theorem Shaped.row_spliced (h : c.Shaped layers rowWidth capacity)
    (hrows : Placed layers rowWidth capacity layer first count keys values) (i position : Nat) :
    (c.spliced layer (first * rowWidth) keys values).row i position =
      if layer = i ∧ first ≤ position ∧ position < first + count then
        (rowAt rowWidth (position - first) keys, rowAt rowWidth (position - first) values)
      else c.row i position := by
  obtain ⟨rfl, rfl, rfl, hkeys, hvalues⟩ := h
  have hkeys' := rowAt_modify hkeys hrows.layer_lt hrows.keys_length hrows.le_size i position
  have hvalues' := rowAt_modify hvalues hrows.layer_lt hrows.values_length hrows.le_size i position
  refine (congr (congrArg Prod.mk hkeys') hvalues').trans ?_
  split <;> rfl

end Placed

/-- **What a call does to a cache of the shape**: it fails and the cache stays, it puts rows of its own into a layer,
or it changes how many positions count. -/
inductive Serves (layers rowWidth capacity : Nat) (c : Cache) (call : Call) : Except Error Unit × Cache → Prop
  | fails {e : Error} (refused : ¬call.Fits layers rowWidth capacity) :
    Serves layers rowWidth capacity c call (.error e, c)
  | stores {l first count : Nat} {keys values : Vec} (fits : call.Fits layers rowWidth capacity)
    (placed : Placed layers rowWidth capacity l first count keys values)
    (stored : ∀ layer position, call.stored? rowWidth layer position =
      if l = layer ∧ first ≤ position ∧ position < first + count then
        some (rowAt rowWidth (position - first) keys, rowAt rowWidth (position - first) values)
      else none) :
    Serves layers rowWidth capacity c call (.ok (), c.spliced l (first * rowWidth) keys values)
  | counts {n : Nat} (fits : call.Fits layers rowWidth capacity) (le : n ≤ capacity)
    (stored : ∀ layer position, call.stored? rowWidth layer position = none) :
    Serves layers rowWidth capacity c call (.ok (), { c with length := n })

variable {layer position : Nat}

/-- A row that fits goes to its position. -/
theorem Shaped.write_eq_ok (h : c.Shaped layers rowWidth capacity) {l p : Nat} {key value : Vec}
    (hfits : (Call.write l p key value).Fits layers rowWidth capacity) :
    Placed layers rowWidth capacity l p 1 key value ∧
      c.write l p key value = .ok (c.spliced l (p * rowWidth) key value) := by
  obtain ⟨rfl, rfl, rfl, -, -⟩ := h
  obtain ⟨hl, hp, hkey, hvalue⟩ := hfits
  refine ⟨⟨hl, hp, by rwa [Nat.one_mul], by rwa [Nat.one_mul]⟩, ?_⟩
  rw [write, if_neg (Nat.not_le.2 hl), if_neg (Nat.not_le.2 hp), if_neg (by omega), writeRow_eq_splice,
    writeRow_eq_splice, hkey, hvalue]
  rfl

theorem Shaped.exists_write_eq_error (h : c.Shaped layers rowWidth capacity) {l p : Nat} {key value : Vec}
    (hfits : ¬(Call.write l p key value).Fits layers rowWidth capacity) : ∃ e, c.write l p key value = .error e := by
  obtain ⟨rfl, rfl, rfl, -, -⟩ := h
  rw [write]
  split
  · exact ⟨_, rfl⟩
  split
  · exact ⟨_, rfl⟩
  split
  · exact ⟨_, rfl⟩
  · exact absurd ⟨by omega, by omega, by omega, by omega⟩ hfits

/-- Rows that fit are whole ones, also where rows have no width. -/
theorem mod_max_eq_zero_iff {n : Nat} (hle : n ≤ rowWidth * capacity) : n % max rowWidth 1 = 0 ↔ rowWidth ∣ n := by
  rcases Nat.eq_zero_or_pos rowWidth with rfl | hpos
  · rw [Nat.zero_mul] at hle
    rw [Nat.le_zero.1 hle]
    exact iff_of_true rfl (Nat.dvd_refl 0)
  · rw [Nat.max_eq_left hpos, Nat.dvd_iff_mod_eq_zero]

/-- Rows that fit go to the first positions. -/
theorem Shaped.loadFront_eq_ok (h : c.Shaped layers rowWidth capacity) {l : Nat} {keys values : Vec}
    (hfits : (Call.loadFront l keys values).Fits layers rowWidth capacity) :
    Placed layers rowWidth capacity l 0 (keys.length / rowWidth) keys values ∧
      c.loadFront l keys values = .ok (c.spliced l (0 * rowWidth) keys values) := by
  obtain ⟨rfl, rfl, rfl, hkeys, -⟩ := h
  obtain ⟨hl, hlengths, hdvd, hle⟩ := hfits
  have hcount : keys.length = keys.length / c.rowWidth * c.rowWidth := (Nat.div_mul_cancel hdvd).symm
  have hroom : 0 + keys.length / c.rowWidth ≤ c.capacity := by
    rw [Nat.zero_add]
    exact Nat.div_le_of_le_mul hle
  refine ⟨⟨hl, hroom, hcount, hlengths ▸ hcount⟩, ?_⟩
  have hbuffer := hkeys.length_getD hl
  have hwhole := (mod_max_eq_zero_iff hle).2 hdvd
  rw [loadFront, hbuffer, if_neg (by omega), writeFront_eq_splice, writeFront_eq_splice, Nat.zero_mul]
  rfl

theorem Shaped.exists_loadFront_eq_error (h : c.Shaped layers rowWidth capacity) {l : Nat} {keys values : Vec}
    (hfits : ¬(Call.loadFront l keys values).Fits layers rowWidth capacity) :
    ∃ e, c.loadFront l keys values = .error e := by
  obtain ⟨rfl, rfl, rfl, hkeys, -⟩ := h
  rw [loadFront]
  split
  · exact ⟨_, rfl⟩
  · have hl : l < c.layerCount := by omega
    have hbuffer := hkeys.length_getD hl
    have hwhole := mod_max_eq_zero_iff (show keys.length ≤ c.rowWidth * c.capacity by omega)
    exact absurd ⟨hl, by omega, hwhole.1 (by omega), by omega⟩ hfits

theorem Shaped.serves_loadFront (h : c.Shaped layers rowWidth capacity) (l : Nat) (keys values : Vec) :
    Serves layers rowWidth capacity c (.loadFront l keys values) (c.serve (.loadFront l keys values)) ∧
      c.serve? (.loadFront l keys values) = some (c.serve (.loadFront l keys values)) := by
  by_cases hfits : (Call.loadFront l keys values).Fits layers rowWidth capacity
  · obtain ⟨hrows, hload⟩ := h.loadFront_eq_ok hfits
    have hcopy : c.copyBoth? l 0 keys.length keys values = some (c.spliced l (0 * rowWidth) keys values) := by
      rw [← h.copyBoth?_eq hrows, ← hrows.keys_length, Nat.zero_mul, Nat.zero_add]
    rw [serve, serve?, hload, hcopy]
    refine ⟨.stores hfits hrows fun layer position => ?_, rfl⟩
    rw [Call.stored?, Nat.sub_zero]
    exact ite_congr (propext ⟨fun hat => ⟨hat.1, by omega⟩, fun hat => ⟨hat.1, by omega⟩⟩) (fun _ => rfl) fun _ => rfl
  · obtain ⟨e, hload⟩ := h.exists_loadFront_eq_error hfits
    rw [serve, serve?, hload]
    exact ⟨.fails hfits, rfl⟩

section

variable (hsize : rowWidth * capacity ≤ Word.max64)

include hsize

theorem Shaped.serves_write (h : c.Shaped layers rowWidth capacity) (l p : Nat) (key value : Vec) :
    Serves layers rowWidth capacity c (.write l p key value) (c.serve (.write l p key value)) ∧
      c.serve? (.write l p key value) = some (c.serve (.write l p key value)) := by
  by_cases hfits : (Call.write l p key value).Fits layers rowWidth capacity
  · obtain ⟨hrows, hwrite⟩ := h.write_eq_ok hfits
    have hcopy := h.copyBoth?_eq hrows
    have hstop := hrows.le_size
    rw [Nat.one_mul] at hcopy hstop
    rw [serve, serve?, hwrite, h.wrapMul_eq hsize (Nat.le_of_lt hrows.room), h.rowWidth_eq]
    simp only [Word.wrapAdd_of_le (Nat.le_trans hstop hsize), hcopy]
    refine ⟨.stores hfits hrows fun layer position => ?_, rfl⟩
    rw [Call.stored?]
    obtain ⟨-, -, hkey, hvalue⟩ := hfits
    refine ite_congr (propext ⟨fun hat => ⟨hat.1, by omega⟩, fun hat => ⟨hat.1, by omega⟩⟩) (fun hat => ?_) fun _ => rfl
    rw [Nat.sub_eq_zero_of_le (by omega), rowAt_zero_of_length hkey, rowAt_zero_of_length hvalue]
  · obtain ⟨e, hwrite⟩ := h.exists_write_eq_error hfits
    rw [serve, serve?, hwrite]
    exact ⟨.fails hfits, rfl⟩

/-- **What a call does to a cache of the shape**, also in place: the slices it changes lie in the buffers. -/
theorem Shaped.serves (h : c.Shaped layers rowWidth capacity) (call : Call) :
    Serves layers rowWidth capacity c call (c.serve call) ∧ c.serve? call = some (c.serve call) := by
  cases call with
  | write l p key value => exact h.serves_write hsize l p key value
  | loadFront l keys values => exact h.serves_loadFront l keys values
  | commit n =>
    have hle : min n c.capacity ≤ capacity := by
      rw [h.capacity_eq]
      exact Nat.min_le_right _ _
    exact ⟨.counts trivial hle fun _ _ => rfl, rfl⟩
  | clear => exact ⟨.counts trivial (Nat.zero_le _) fun _ _ => rfl, rfl⟩

/-- **The step**: the rows of a call that succeeds are stored, all others stay, and so does the shape. -/
theorem Shaped.row_serve (h : c.Shaped layers rowWidth capacity) (call : Call) :
    (c.serve call).2.Shaped layers rowWidth capacity ∧
      ((c.serve call).1 = .ok () ↔ call.Fits layers rowWidth capacity) ∧
      (c.length ≤ capacity → (c.serve call).2.length ≤ capacity) ∧
      ∀ layer position, (c.serve call).2.row layer position =
        if call.Fits layers rowWidth capacity then (call.stored? rowWidth layer position).getD (c.row layer position)
        else c.row layer position := by
  obtain ⟨hserves, -⟩ := h.serves hsize call
  generalize c.serve call = answer at hserves
  cases hserves with
  | fails refused =>
    exact ⟨h, iff_of_false (fun hok => nomatch hok) refused, id, fun _ _ => (if_neg refused).symm⟩
  | stores fits placed stored =>
    refine ⟨h.spliced placed, iff_of_true rfl fits, id, fun layer position => ?_⟩
    rw [h.row_spliced placed, if_pos fits, stored]
    split <;> rfl
  | counts fits le stored =>
    refine ⟨⟨h.1, h.2, h.3, h.4, h.5⟩, iff_of_true rfl fits, fun _ => le, fun layer position => ?_⟩
    rw [if_pos fits, stored]
    rfl

/-! ## What a run of calls does -/

/-- **The run**: what is at a place is what was last stored there, or else what was there at the start. -/
theorem Shaped.row_run (h : c.Shaped layers rowWidth capacity) (hlength : c.length ≤ capacity) (calls : List Call) :
    (c.run calls).Shaped layers rowWidth capacity ∧ (c.run calls).length ≤ capacity ∧
      ∀ layer position, (c.run calls).row layer position =
        (Call.lastStored? layers rowWidth capacity layer position calls).getD (c.row layer position) := by
  -- the last call decides, so the induction takes the calls from the end
  induction calls using List.reverseRec with
  | nil => exact ⟨h, hlength, fun _ _ => rfl⟩
  | append_singleton calls call ih =>
    obtain ⟨hshaped, hlength, hrows⟩ := ih
    obtain ⟨hshaped', -, hlength', hrows'⟩ := hshaped.row_serve hsize call
    rw [run_append_singleton]
    refine ⟨hshaped', hlength' hlength, fun layer position => ?_⟩
    rw [hrows', hrows]
    split
    · rw [Call.lastStored?_of_fits ‹_›]
      cases call.stored? rowWidth layer position <;> rfl
    · rw [Call.lastStored?_of_not_fits ‹_›]

end

/-! ## New caches -/

/-- So many zeroed buffers of one size. -/
def zeroed (layers size : Nat) : List Vec := List.replicate layers (List.replicate size .zero)

theorem buffers_of_fits {size : Nat} (h : Memory.fits size = true) :
    ∀ layers : Nat, buffers size layers = .ok (zeroed layers size, zeroed layers size)
  | 0 => rfl
  | layers + 1 => by
    have hzeros : Memory.zeros size = .ok (List.replicate size .zero) := if_pos h
    rw [buffers, hzeros, buffers_of_fits h layers]
    rfl

/-- Buffers are had where one of them can be had, or none is asked for. -/
theorem buffers_eq_ok_iff {size layers : Nat} {p : List Vec × List Vec} : buffers size layers = .ok p ↔
    (0 < layers → Memory.fits size = true) ∧ p = (zeroed layers size, zeroed layers size) := by
  cases layers with
  | zero => exact ⟨fun h => ⟨fun hlt => absurd hlt (Nat.lt_irrefl 0), by cases h; rfl⟩, fun h => by rw [h.2]; rfl⟩
  | succ layers =>
    constructor
    · intro h
      have hfits : Memory.fits size = true := by
        rw [buffers, bind_eq_ok_iff] at h
        obtain ⟨k, hk, -⟩ := h
        exact Memory.fits_of_zeros hk
      rw [buffers_of_fits hfits] at h
      cases h
      exact ⟨fun _ => hfits, rfl⟩
    · rintro ⟨hfits, rfl⟩
      exact buffers_of_fits (hfits (Nat.succ_pos _)) _

theorem new_eq_ok_iff : new layers rowWidth capacity = .ok c ↔
    (0 < layers → Memory.fits (Word.wrapMul rowWidth capacity) = true) ∧
    c = ⟨layers, rowWidth, capacity, zeroed layers (Word.wrapMul rowWidth capacity),
      zeroed layers (Word.wrapMul rowWidth capacity), 0⟩ := by
  simp only [new, bind_eq_ok_iff, buffers_eq_ok_iff]
  constructor
  · rintro ⟨_, ⟨hfits, rfl⟩, h⟩
    cases h
    exact ⟨hfits, rfl⟩
  · rintro ⟨hfits, rfl⟩
    exact ⟨_, ⟨hfits, rfl⟩, rfl⟩

theorem rowAt_zeroed (hl : layer < layers) (hp : position < capacity) :
    rowAt rowWidth position ((zeroed layers (rowWidth * capacity)).getD layer []) = List.replicate rowWidth .zero := by
  have hroom : (position + 1) * rowWidth ≤ rowWidth * capacity := mul_le_size hp
  rw [Nat.add_mul, Nat.one_mul] at hroom
  rw [zeroed, List.getD_eq_getElem?_getD, List.getElem?_replicate_of_lt hl, Option.getD_some, rowAt,
    List.drop_replicate, List.take_replicate]
  congr 1
  omega

theorem row_new (hsize : rowWidth * capacity ≤ Word.max64) (h : new layers rowWidth capacity = .ok c)
    (hl : layer < layers) (hp : position < capacity) :
    c.row layer position = (List.replicate rowWidth .zero, List.replicate rowWidth .zero) := by
  obtain ⟨-, rfl⟩ := new_eq_ok_iff.1 h
  rw [Word.wrapMul_of_le hsize]
  exact Prod.ext (rowAt_zeroed hl hp) (rowAt_zeroed hl hp)

/-- **A size that wraps around leaves positions without room**: some keys and values that there should be lie behind the
ends of the buffers. -/
theorem exists_slice_out (hword : rowWidth ≤ Word.max64) (hsize : Word.max64 < rowWidth * capacity)
    (hlayers : 0 < layers) (h : new layers rowWidth capacity = .ok c) :
    ∃ n ≤ capacity, ∀ layer < layers, c.keys? layer n = none ∧ c.values? layer n = none := by
  obtain ⟨hfits, rfl⟩ := new_eq_ok_iff.1 h
  have hfits := hfits hlayers
  generalize hroom : Word.wrapMul rowWidth capacity = room at hfits
  have hsmall : room * 4 < 2 ^ 47 := of_decide_eq_true hfits
  have hmax : Word.max64 = 2 ^ 64 - 1 := rfl
  have hpos : 0 < rowWidth := Nat.pos_of_ne_zero fun hzero => by
    rw [hzero, Nat.zero_mul] at hsize
    omega
  -- one row more than there is room for
  have hmore : room < (room / rowWidth + 1) * rowWidth := by
    rw [← Nat.div_lt_iff_lt_mul hpos]
    exact Nat.lt_succ_self _
  have hplace : Word.wrapMul (room / rowWidth + 1) rowWidth = (room / rowWidth + 1) * rowWidth := by
    have hrows := Nat.div_mul_le_self room rowWidth
    refine Word.wrapMul_of_le ?_
    rcases Nat.lt_or_ge room rowWidth with hlt | hle
    · rwa [Nat.div_eq_of_lt hlt, Nat.zero_add, Nat.one_mul]
    · rw [Nat.add_mul, Nat.one_mul]
      omega
  refine ⟨room / rowWidth + 1, ?_, fun layer hl => ?_⟩
  · rw [Nat.succ_le_iff, Nat.div_lt_iff_lt_mul hpos, Nat.mul_comm capacity]
    omega
  · simp only [keys?, values?, front?, zeroed, hplace, List.getElem?_replicate_of_lt hl, Option.bind_eq_bind,
      Option.bind_some, List.length_replicate, if_neg (Nat.not_le.2 hmore), and_self]

/-- **A cache is a map from layers and positions to rows**, where a buffer's size is a word.  There is one of a shape if
its buffers can be had.  After any calls that succeed or fail, keys and values are the rows last stored, row after row,
for every layer and as many positions as there are, and no more positions count than there are.  A call succeeds exactly
if its place is in the cache and its rows are whole ones; if it fails, the cache stays; a place that it has no rows for
keeps its own; and the slices it changes lie in the buffers.  Where the size wraps around, there is no such map: the
slices of some positions lie behind the ends of the buffers. -/
theorem rows_run_new (layers rowWidth capacity : Nat) (hword : rowWidth ≤ Word.max64) :
    ((∃ c, new layers rowWidth capacity = .ok c) ↔
      (0 < layers → Memory.fits (Word.wrapMul rowWidth capacity) = true)) ∧
    ∀ c, new layers rowWidth capacity = .ok c →
      (Word.max64 < rowWidth * capacity → 0 < layers → ∃ n ≤ capacity, ∀ layer < layers,
        c.keys? layer n = none ∧ c.values? layer n = none) ∧
      (rowWidth * capacity ≤ Word.max64 → ∀ calls : List Call,
        (∀ layer < layers, ∀ n ≤ capacity,
          (c.run calls).keys? layer n = some ((c.run calls).keys layer n) ∧
          (c.run calls).values? layer n = some ((c.run calls).values layer n) ∧
          (c.run calls).keys layer n =
            (List.range n).flatMap (fun i => (Call.lastRows layers rowWidth capacity layer i calls).1) ∧
          (c.run calls).values layer n =
            (List.range n).flatMap (fun i => (Call.lastRows layers rowWidth capacity layer i calls).2)) ∧
        (∀ layer < layers, ∀ position < capacity,
          (c.run calls).row layer position = Call.lastRows layers rowWidth capacity layer position calls) ∧
        (c.run calls).length ≤ capacity ∧
        ∀ call : Call,
          (((c.run calls).serve call).1 = .ok () ↔ call.Fits layers rowWidth capacity) ∧
          (((c.run calls).serve call).1 ≠ .ok () → ((c.run calls).serve call).2 = c.run calls) ∧
          (∀ layer position, call.stored? rowWidth layer position = none →
            ((c.run calls).serve call).2.row layer position = (c.run calls).row layer position) ∧
          (c.run calls).serve? call = some ((c.run calls).serve call)) := by
  refine ⟨⟨fun ⟨c, h⟩ => (new_eq_ok_iff.1 h).1, fun h => ⟨_, new_eq_ok_iff.2 ⟨h, rfl⟩⟩⟩, fun c hnew =>
    ⟨fun hwraps hlayers => exists_slice_out hword hwraps hlayers hnew, fun hsize calls => ?_⟩⟩
  have hlength : c.length ≤ capacity := by
    obtain ⟨-, rfl⟩ := new_eq_ok_iff.1 hnew
    exact Nat.zero_le _
  obtain ⟨hshaped, hlength', hrows⟩ := (shaped_new hsize hnew).row_run hsize hlength calls
  have hlast : ∀ layer < layers, ∀ position < capacity,
      (c.run calls).row layer position = Call.lastRows layers rowWidth capacity layer position calls := by
    intro layer hl position hp
    rw [hrows, row_new hsize hnew hl hp, Call.lastRows]
  refine ⟨fun layer hl n hn => ⟨hshaped.keys?_eq hsize hl hn, hshaped.values?_eq hsize hl hn, ?_, ?_⟩, hlast, hlength',
    fun call => ?_⟩
  · rw [keys_eq_flatMap_row]
    exact List.flatMap_congr fun i hi => congrArg Prod.fst (hlast layer hl i (by rw [List.mem_range] at hi; omega))
  · rw [values_eq_flatMap_row]
    exact List.flatMap_congr fun i hi => congrArg Prod.snd (hlast layer hl i (by rw [List.mem_range] at hi; omega))
  · obtain ⟨hserves, hinPlace⟩ := hshaped.serves hsize call
    obtain ⟨-, hok, -, hrow⟩ := hshaped.row_serve hsize call
    refine ⟨hok, fun hfail => ?_, fun layer position hnone => ?_, hinPlace⟩
    · rw [Ne, hok] at hfail
      generalize (c.run calls).serve call = answer at hserves
      cases hserves with
      | fails => rfl
      | stores fits => exact absurd fits hfail
      | counts fits => exact absurd fits hfail
    · rw [hrow, hnone, Option.getD_none, ite_self]

/-- A row is loaded, written over, kept by a call that fails and by one that clears, and read again. -/
theorem rows_run_new_overlapping : ∃ c, new 2 1 2 = .ok c ∧
    ∀ calls, calls = [.loadFront 0 [.one, .two] [.half, .half], .write 0 1 [.zero] [.one], .write 0 2 [.one] [.one],
        .write 1 0 [.two] [.two], .commit 2, .clear] →
      (c.run calls).keys? 0 2 = some [.one, .zero] ∧ (c.run calls).values? 1 2 = some [.two, .zero] := by
  obtain ⟨hnew, hmap⟩ := rows_run_new 2 1 2 (by decide)
  obtain ⟨c, hnew⟩ := hnew.2 fun _ => by decide
  refine ⟨c, hnew, fun calls hcalls => ?_⟩
  obtain ⟨hrows, -⟩ := (hmap c hnew).2 (by decide) calls
  obtain ⟨hkeys?, -, hkeys, -⟩ := hrows 0 (by decide) 2 (by decide)
  obtain ⟨-, hvalues?, -, hvalues⟩ := hrows 1 (by decide) 2 (by decide)
  rw [hkeys?, hvalues?, hkeys, hvalues, hcalls]
  exact ⟨by decide, by decide⟩

/-- Rows of two numbers for `2 ^ 63 + 1` positions wrap around to the room for one: there is such a cache, and it has no
answer where it is asked for two of its rows. -/
theorem keys?_eq_none_wrapped : ∃ c, new 1 2 (2 ^ 63 + 1) = .ok c ∧ 2 ≤ c.capacity ∧
    c.keys? 0 1 = some [.zero, .zero] ∧ c.keys? 0 2 = none :=
  ⟨_, rfl, by decide, by decide, by decide⟩

end CausalLM.Cache
