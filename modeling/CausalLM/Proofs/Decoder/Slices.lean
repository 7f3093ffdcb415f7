import CausalLM.Proofs.Decoder.Pass
import CausalLM.Proofs.Decoder.Uncached
/-!
# Proofs.Decoder.Slices — the loops of a pass, in place

The running pass cuts its vectors as lists are cut: what lies beyond the end is not there, and nothing comes of it.
Here its loops work in place, on slices of their buffers, and have no answer as soon as a slice does not lie in its
buffer, a divisor is zero, or a cell is read that is left over from before (`Cells`).  For weights of the right shapes
they always have one, that of the running pass (`linear?_eq`, `attend?_eq`).
-/
namespace CausalLM.Decoder

/-! ## Slices and cells -/

/-- The slice of a list from `start` up to `stop`, if it lies in the list.  Its end is no larger than a length, so no
offset of a slice in range outgrows a word. -/
def slice? {α : Type} (l : List α) (start stop : Nat) : Option (List α) :=
  if start ≤ stop ∧ stop ≤ l.length then some ((l.drop start).take (stop - start)) else none

/-- A list in two, cut behind the first `n`, if there are as many. -/
def splitAt? {α : Type} (l : List α) (n : Nat) : Option (List α × List α) :=
  if n ≤ l.length then some (l.take n, l.drop n) else none

/-- **A buffer, cell by cell.**  A cell without a number holds what was left there before, which is not to be read. -/
abbrev Cells := List (Option Single)

namespace Cells

/-- The numbers of a buffer without leftovers. -/
def read? : Cells → Option Vec
  | [] => some []
  | c :: b => do return (← c) :: (← read? b)

def of (v : Vec) : Cells := v.map some

/-- Writes `new` over the front of `old`. -/
def overlay (new : Vec) (old : Cells) : Cells := of (new.take old.length) ++ old.drop new.length

/-- A buffer with some of its cells, from `start` on, put back. -/
def put (b : Cells) (start : Nat) (part : Cells) : Cells := b.take start ++ part ++ b.drop (start + part.length)

/-- No cell is left over. -/
def Written (b : Cells) : Prop := none ∉ b

/-- **What the buffer holds is what the vector holds**, leftovers apart. -/
def Agrees (b : Cells) (v : Vec) : Prop := List.Forall₂ (fun c x => ∀ y ∈ c, y = x) b v

@[simp] theorem length_of (v : Vec) : (of v).length = v.length := List.length_map _

@[simp] theorem read?_of : ∀ v : Vec, (of v).read? = some v
  | [] => rfl
  | x :: v => by
    change (read? (of v)).bind (fun rest => some (x :: rest)) = _
    rw [read?_of v, Option.bind_some]

theorem written_iff : ∀ {b : Cells}, b.Written ↔ ∃ v, b = of v
  | [] => ⟨fun _ => ⟨[], rfl⟩, fun _ h => nomatch h⟩
  | c :: b => by
    rw [Written, List.mem_cons, not_or, ← Written, written_iff]
    constructor
    · rintro ⟨hc, v, rfl⟩
      obtain ⟨x, rfl⟩ := Option.ne_none_iff_exists'.1 (Ne.symm hc)
      exact ⟨x :: v, rfl⟩
    · rintro ⟨v, hv⟩
      cases v with
      | nil => cases hv
      | cons x v =>
        cases hv
        exact ⟨fun h => (nomatch h), v, rfl⟩

theorem written_of (v : Vec) : (of v).Written := written_iff.2 ⟨v, rfl⟩

theorem of_append (u v : Vec) : of (u ++ v) = of u ++ of v := List.map_append

theorem put_append {u part new rest : Cells} (h : new.length = part.length) :
    put (u ++ part ++ rest) u.length new = u ++ new ++ rest := by
  rw [put, List.append_assoc u part, List.take_left, h, ← List.drop_drop, List.drop_left, List.drop_left]

@[simp] theorem length_overlay (new : Vec) (old : Cells) : (overlay new old).length = old.length := by
  rw [overlay, List.length_append, length_of, List.length_take, List.length_drop]
  omega

theorem take_overlay {new : Vec} {old : Cells} (h : new.length ≤ old.length) :
    (overlay new old).take new.length = of new := by
  rw [overlay, List.take_of_length_le h, ← length_of new, List.take_left]

theorem put_zero_of {new : Vec} {old : Cells} (h : new.length ≤ old.length) : put old 0 (of new) = overlay new old := by
  rw [put, overlay, List.take_zero, List.nil_append, Nat.zero_add, length_of, List.take_of_length_le h]

theorem overlay_of_length {new : Vec} {old : Cells} (h : new.length = old.length) : overlay new old = of new := by
  rw [overlay, ← h, List.take_length, List.drop_eq_nil_of_le (Nat.le_of_eq h.symm), List.append_nil]

theorem agrees_of (v : Vec) : (of v).Agrees v :=
  List.forall₂_map_left_iff.2 (List.forall₂_same.2 fun _ _ _ hy => (Option.some.inj hy).symm)

theorem agrees_replicate {n : Nat} {v : Vec} (h : v.length = n) : Agrees (List.replicate n none) v := by
  subst h
  induction v with
  | nil => exact .nil
  | cons x v ih => exact .cons (fun y hy => by cases hy) ih

theorem Agrees.length_eq {b : Cells} {v : Vec} (h : b.Agrees v) : b.length = v.length := List.Forall₂.length_eq h

theorem Agrees.eq_of {v x : Vec} (h : (of x).Agrees v) : v = x := by
  have h' := List.forall₂_map_left_iff.1 h
  refine (List.forall₂_eq_eq_eq ▸ h'.imp fun a b hab => hab a rfl : x = v).symm

theorem Agrees.overlay {old : Cells} {v : Vec} (h : old.Agrees v) (new : Vec) :
    (overlay new old).Agrees (Vec.overlay new v) := by
  rw [Cells.overlay, Vec.overlay, h.length_eq]
  exact List.rel_append (agrees_of _) (List.forall₂_drop _ h)

end Cells

/-! ## Loops in place -/

/-- **A linear map, row by row**: each row of the weight is a slice of it, each shift a number of the bias. -/
def linear? (k : Kernels) (w : Tensor) (x : Vec) (bias : Option Tensor) (size : Nat) : Option Vec :=
  match w.apply k x bias size with
  | .error _ => none
  | .ok _ => (List.range w.rows).mapM fun r => do
    let row ← slice? w.data.toList (r * w.rowLength) ((r + 1) * w.rowLength)
    let shift ← match bias with
      | none => some .zero
      | some b => b.data[r]?
    return k.dot row x + shift

section
variable (k : Kernels) (h : Hyperparameters) (query keys values : Vec)

/-- The products of a head's query with its part of the keys of `n` positions. -/
def products? (offset n : Nat) : Option Vec :=
  (List.range n).mapM fun t => do
    let key ← slice? keys (t * h.rowWidth + offset) (t * h.rowWidth + offset + h.headWidth)
    return k.dot query key * (Single.one / (Single.ofNat h.headWidth).sqrt)

/-- The weighted part of the values of all positions, added up in `part`. -/
def addValues? (offset : Nat) (weights : Vec) (part : Cells) : Option Cells :=
  weights.zipIdx.foldlM (fun part (x, t) => do
    let value ← slice? values (t * h.rowWidth + offset) (t * h.rowWidth + offset + h.headWidth)
    return .overlay (Vec.update (fun o v => o + x * v) (← Cells.read? part) value) part) part

/-- The scores of a head, over those of the head before. -/
def scores? (scores : Cells) (i : Nat) : Option Cells := do
  let own ← slice? query (i * h.headWidth) ((i + 1) * h.headWidth)
  let products ← products? k h own keys (headOffset h i) scores.length
  let scores := Cells.overlay products scores
  return .overlay (k.softmax (← scores.read?)) scores

/-- **One head of the attention in place**: its scores, and then the values they weigh, in its part of the output. -/
def head? (s : Cells × Cells) (i : Nat) : Option (Cells × Cells) := do
  let scores ← scores? k h query keys s.1 i
  let part ← slice? s.2 (i * h.headWidth) ((i + 1) * h.headWidth)
  let part ← addValues? h values (headOffset h i) (← scores.read?) part
  return (scores, s.2.put (i * h.headWidth) part)

/-- **Attention in place**: the output is zeroed, then the heads follow one another. -/
def attend? (scores out : Cells) : Option (Cells × Cells) :=
  if h.heads = 0 ∨ h.headsKV = 0 ∨ h.heads / h.headsKV = 0 then none
  else (List.range h.heads).foldlM (head? k h query keys values) (scores, out.map fun _ => some .zero)

end

/-! ## No loop leaves its buffers -/

theorem some_bind {α β : Type} (a : α) (f : α → Option β) : (some a >>= f) = f a := rfl

theorem slice?_eq {α : Type} {l : List α} {start n : Nat} (h : start + n ≤ l.length) :
    slice? l start (start + n) = some ((l.drop start).take n) := by
  rw [slice?, if_pos ⟨Nat.le_add_right _ _, h⟩, Nat.add_sub_cancel_left]

example : slice? [0, 1, 2] 1 3 = some [1, 2] ∧ slice? [0, 1, 2] 2 4 = none := by decide

theorem slice?_append {α : Type} (u part rest : List α) :
    slice? (u ++ part ++ rest) u.length (u.length + part.length) = some part := by
  rw [slice?_eq (by simp), List.append_assoc, List.drop_left, List.take_left]

theorem splitAt?_eq {α : Type} {l : List α} {n : Nat} (h : n ≤ l.length) :
    splitAt? l n = some (l.take n, l.drop n) := if_pos h

theorem mapM_eq_some_map {α β : Type} {f : α → Option β} {g : α → β} :
    ∀ {l : List α}, (∀ a ∈ l, f a = some (g a)) → l.mapM f = some (l.map g)
  | [], _ => rfl
  | a :: l, h => by
    obtain ⟨ha, hl⟩ := List.forall_mem_cons.1 h
    rw [List.mapM_cons, ha, mapM_eq_some_map hl]
    rfl

theorem foldlM_range_eq_some {β : Type} {f : β → Nat → Option β} {g : Nat → β} :
    ∀ {n : Nat}, (∀ i < n, f (g i) i = some (g (i + 1))) → (List.range n).foldlM f (g 0) = some (g n)
  | 0, _ => rfl
  | n + 1, h => by
    rw [List.range_succ, List.foldlM_append,
      foldlM_range_eq_some fun i hi => h i (Nat.lt_succ_of_lt hi), Option.bind_eq_bind, Option.bind_some,
      List.foldlM_cons, h n (Nat.lt_succ_self n)]
    rfl

variable {k : Kernels} {h : Hyperparameters}

/-- The slice of a row is the row. -/
theorem slice?_row {w : Tensor} {m n r : Nat} (hw : w.Filled [n, m]) (hr : r < m) :
    slice? w.data.toList (r * w.rowLength) ((r + 1) * w.rowLength) = some (w.rowData r) := by
  have hroom : r * w.rowLength + w.rowLength ≤ w.data.toList.length := by
    rw [Array.length_toList, hw.rowLength_matrix, hw.size_matrix, ← Nat.succ_mul, Nat.mul_comm n]
    exact Nat.mul_le_mul_right n hr
  rw [Nat.add_mul, Nat.one_mul, slice?_eq hroom, Tensor.rowData, Array.toList_extract, List.extract_eq_take_drop,
    Nat.add_mul, Nat.one_mul, Nat.add_sub_cancel_left]

theorem linear?_eq {w : Tensor} {bias : Option Tensor} {x : Vec} {m n size : Nat} (hw : w.Filled [n, m])
    (hn : 0 < n) (hb : ∀ b ∈ bias, b.Filled [m]) (hx : x.length = n) (hsize : size = m) :
    linear? k w x bias size = some (linear k w bias x) := by
  rw [linear?, apply_eq_linear hw hn hb hx hsize]
  refine mapM_eq_some_map fun r hr => ?_
  rw [hw.rows_matrix hn, List.mem_range] at hr
  rw [slice?_row hw hr]
  cases bias with
  | none => rfl
  | some b =>
    have hlt : r < b.data.size := by rwa [← Array.length_toList, (hb b rfl).length_vector]
    simp [hlt]

section
variable {query keys values out : Vec} {n i : Nat}

/-- The part of a row that a head reads lies among the rows of all positions. -/
theorem slice?_headRow (v : h.Valid) (hi : i < h.heads) {rows : Vec} (hrows : rows.length = n * h.rowWidth) {t : Nat}
    (ht : t < n) : slice? rows (t * h.rowWidth + headOffset h i) (t * h.rowWidth + headOffset h i + h.headWidth) =
      some (headRow rows h.rowWidth h.headWidth (headOffset h i) t) := by
  have hoffset := Uncached.headOffset_add_le v hi
  have hrow : (t + 1) * h.rowWidth ≤ n * h.rowWidth := Nat.mul_le_mul_right _ ht
  rw [Nat.add_mul, Nat.one_mul] at hrow
  exact slice?_eq (by omega)

/-- The part of a head lies in a vector as wide as the hidden state. -/
theorem slice?_head {α : Type} (v : h.Valid) (hi : i < h.heads) {l : List α} (hl : l.length = h.width) :
    slice? l (i * h.headWidth) ((i + 1) * h.headWidth) = some ((l.drop (i * h.headWidth)).take h.headWidth) := by
  have hle : (i + 1) * h.headWidth ≤ h.heads * h.headWidth := Nat.mul_le_mul_right _ hi
  rw [v.heads_mul] at hle
  rw [Nat.add_mul, Nat.one_mul] at hle ⊢
  exact slice?_eq (by omega)

theorem length_scoresOfHead (query keys : Vec) (n i : Nat) : (scoresOfHead k h query keys n i).length = n := by
  rw [scoresOfHead, headScores, k.length_softmax, List.length_map, List.length_range]

theorem products?_eq (v : h.Valid) (hi : i < h.heads) (hkeys : keys.length = n * h.rowWidth) (query : Vec) :
    products? k h query keys (headOffset h i) n = some ((List.range n).map fun t =>
      k.dot query (headRow keys h.rowWidth h.headWidth (headOffset h i) t) *
        (Single.one / (Single.ofNat h.headWidth).sqrt)) := by
  refine mapM_eq_some_map fun t ht => ?_
  rw [slice?_headRow v hi hkeys (List.mem_range.1 ht)]
  rfl

theorem foldlM_values_eq (v : h.Valid) (hi : i < h.heads) (hvalues : values.length = n * h.rowWidth) :
    ∀ {l : List (Single × Nat)} {part : Vec}, (∀ p ∈ l, p.2 < n) →
    l.foldlM (fun part (x, t) => do
      let value ← slice? values (t * h.rowWidth + headOffset h i) (t * h.rowWidth + headOffset h i + h.headWidth)
      return .overlay (Vec.update (fun o v => o + x * v) (← Cells.read? part) value) part) (Cells.of part) =
      some (.of (l.foldl (fun part (x, t) => Vec.update (fun o v => o + x * v) part
        (headRow values h.rowWidth h.headWidth (headOffset h i) t)) part))
  | [], _, _ => rfl
  | (x, t) :: l, part, hl => by
    obtain ⟨ht, hrest⟩ := List.forall_mem_cons.1 hl
    have hover : Cells.overlay (Vec.update (fun o v => o + x * v) part
        (headRow values h.rowWidth h.headWidth (headOffset h i) t)) (.of part) = .of (Vec.update
          (fun o v => o + x * v) part (headRow values h.rowWidth h.headWidth (headOffset h i) t)) :=
      Cells.overlay_of_length (by rw [Vec.length_update, Cells.length_of])
    rw [List.foldlM_cons, List.foldl_cons, ← foldlM_values_eq v hi hvalues hrest]
    simp only [slice?_headRow v hi hvalues ht, Cells.read?_of, Option.bind_eq_bind, Option.bind_some, hover]
    rfl

/-- The weighted values of a head, added up from zeros. -/
theorem addValues?_eq (v : h.Valid) (hi : i < h.heads) (hvalues : values.length = n * h.rowWidth) {weights : Vec}
    (hweights : weights.length = n) :
    addValues? h values (headOffset h i) weights (.of (List.replicate h.headWidth .zero)) =
      some (.of (weightedValues h weights values (headOffset h i))) := by
  refine foldlM_values_eq v hi hvalues fun p hp => ?_
  have hlt := List.snd_lt_of_mem_zipIdx hp
  omega

theorem scores?_eq (v : h.Valid) (hi : i < h.heads) (hquery : query.length = h.width)
    (hkeys : keys.length = n * h.rowWidth) {scores : Cells} (hscores : scores.length = n) :
    scores? k h query keys scores i = some (.of (scoresOfHead k h query keys n i)) := by
  rw [scores?, slice?_head v hi hquery, some_bind, hscores, products?_eq v hi hkeys, some_bind,
    Cells.overlay_of_length (by rw [List.length_map, List.length_range, hscores])]
  dsimp only
  rw [Cells.read?_of, some_bind, Cells.overlay_of_length (by rw [k.length_softmax, Cells.length_of])]
  rfl

/-- **One head in place** writes its scores over all that were there, and its values over the zeros behind the heads
before it. -/
theorem head?_eq (v : h.Valid) (hi : i < h.heads) (hquery : query.length = h.width)
    (hkeys : keys.length = n * h.rowWidth) (hvalues : values.length = n * h.rowWidth) {scores : Cells}
    (hscores : scores.length = n) {done : Vec} (hdone : done.length = i * h.headWidth) :
    head? k h query keys values (scores, .of (done ++ .replicate (h.width - i * h.headWidth) .zero)) i =
      some (.of (scoresOfHead k h query keys n i),
        .of (done ++ weightedValues h (scoresOfHead k h query keys n i) values (headOffset h i) ++
          .replicate (h.width - (i + 1) * h.headWidth) .zero)) := by
  have hle : (i + 1) * h.headWidth ≤ h.heads * h.headWidth := Nat.mul_le_mul_right _ hi
  rw [v.heads_mul, Nat.add_mul, Nat.one_mul] at hle
  have hstart : i * h.headWidth = (Cells.of done).length := by rw [Cells.length_of, hdone]
  have hstop : (i + 1) * h.headWidth = (Cells.of done).length + (Cells.of (.replicate h.headWidth .zero)).length := by
    rw [← hstart, Cells.length_of, List.length_replicate, Nat.add_mul, Nat.one_mul]
  -- the zeros that are left are those of this head and those of the heads behind it
  have hzeros : Cells.of (done ++ .replicate (h.width - i * h.headWidth) .zero) = .of done ++
      .of (.replicate h.headWidth .zero) ++ .of (.replicate (h.width - (i + 1) * h.headWidth) .zero) := by
    rw [← Cells.of_append, ← Cells.of_append, List.append_assoc, List.replicate_append_replicate]
    congr 3
    rw [Nat.add_mul, Nat.one_mul]
    omega
  have hput : (Cells.of (weightedValues h (scoresOfHead k h query keys n i) values (headOffset h i))).length =
      (Cells.of (.replicate h.headWidth .zero)).length := by
    rw [Cells.length_of, Cells.length_of, length_weightedValues, List.length_replicate]
  rw [head?]
  dsimp only
  rw [scores?_eq v hi hquery hkeys hscores, some_bind, hzeros, hstop, hstart, slice?_append, some_bind, Cells.read?_of,
    some_bind, addValues?_eq v hi hvalues (length_scoresOfHead query keys n i), some_bind, Cells.put_append hput, Cells.of_append, Cells.of_append]
  rfl

theorem length_flatMap_values (query keys values : Vec) (n i : Nat) :
    ((List.range i).flatMap fun j =>
      weightedValues h (scoresOfHead k h query keys n j) values (headOffset h j)).length = i * h.headWidth := by
  simp only [List.length_flatMap, length_weightedValues]
  rw [List.map_const', List.sum_replicate_nat, List.length_range]

/-- **Attention in place** fills the whole output, whatever was there, and leaves the scores of the last head. -/
theorem attend?_eq (v : h.Valid) (hquery : query.length = h.width) (hkeys : keys.length = n * h.rowWidth)
    (hvalues : values.length = n * h.rowWidth) {scores out : Cells} (hscores : scores.length = n)
    (hout : out.length = h.width) : attend? k h query keys values scores out =
      some (.of (scoresOfHead k h query keys n (h.heads - 1)), .of (attend k h query keys values n)) := by
  have hheads := v.heads_pos
  have hkv := v.headsKV_pos
  have hgroup := v.group_pos
  -- behind the first heads stand the scores of the last of them, their outputs, and zeros for the heads to come
  let behind : Nat → Cells × Cells := fun i =>
    (if i = 0 then scores else .of (scoresOfHead k h query keys n (i - 1)),
      .of (((List.range i).flatMap fun j =>
        weightedValues h (scoresOfHead k h query keys n j) values (headOffset h j)) ++
          .replicate (h.width - i * h.headWidth) .zero))
  have hstart : (scores, out.map fun _ => some Single.zero) = behind 0 := by
    simp [behind, Cells.of, List.map_const', hout]
  have hstep : ∀ i < h.heads, head? k h query keys values (behind i) i = some (behind (i + 1)) := by
    intro i hi
    have hlength : (behind i).1.length = n := by
      dsimp only [behind]
      split
      · exact hscores
      · rw [Cells.length_of, length_scoresOfHead]
    rw [head?_eq v hi hquery hkeys hvalues hlength (length_flatMap_values query keys values n i)]
    simp only [behind, List.range_succ, List.flatMap_append, List.flatMap_singleton, Nat.add_sub_cancel,
      if_neg (Nat.succ_ne_zero i)]
  have hend : behind h.heads =
      (.of (scoresOfHead k h query keys n (h.heads - 1)), .of (attend k h query keys values n)) := by
    simp only [behind, if_neg (Nat.ne_of_gt hheads), v.heads_mul, Nat.sub_self, List.replicate_zero, List.append_nil]
    rfl
  rw [attend?, if_neg (by omega), hstart, foldlM_range_eq_some hstep, hend]

end

end CausalLM.Decoder
