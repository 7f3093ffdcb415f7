import CausalLM.Proofs.Decoder.Step
/-!
# Proofs.Decoder.Uncached — the forward pass over a whole text

The pass without a cache computes every layer for all positions before the next one, a position attending to the key
and value rows of its own layer up to its own.  It is built from the same maps and operations as the running pass, but
on lists of rows, and nothing in it is kept or overwritten.  `stepTokens_flat` says that steps from the rows of a text
give the rows of a longer one.
-/
namespace CausalLM.Decoder

namespace Uncached

variable (k : Kernels) (h : Hyperparameters)

/-! ## The pass -/

/-- The part of a row that query head `i` reads. -/
def headPart (i : Nat) (row : Vec) : Vec := (row.drop (headOffset h i)).take h.headWidth

/-- The probabilities with which query head `i` attends to some keys. -/
def scores (query : Vec) (keys : List Vec) (i : Nat) : Vec :=
  let scale := Single.one / (Single.ofNat h.headWidth).sqrt
  k.softmax (keys.map fun key => k.dot ((query.drop (i * h.headWidth)).take h.headWidth) (headPart h i key) * scale)

/-- **Attention** of a query to some rows of keys and values: per head the values weighted by the scores. -/
def attention (query : Vec) (keys values : List Vec) : Vec :=
  (List.range h.heads).flatMap fun i =>
    ((scores k h query keys i).zip values).foldl
      (fun out (s, value) => Vec.update (fun o v => o + s * v) out (headPart h i value))
      (List.replicate h.headWidth .zero)

/-- **One layer for all positions.** -/
def layer (l : Layer) (xs : List Vec) : List Vec :=
  xs.mapIdx fun p x => fedForward k h l (attended k l x (attention k h (queryOf k h l x)
    ((xs.map (keyOf k h l)).take (p + 1)) ((xs.map (valueOf k h l)).take (p + 1))))

/-- Per layer the key and value rows of all positions, from the hidden states before the first of the layers. -/
def layerRows : List Layer → List Vec → List (List Vec × List Vec)
  | [], _ => []
  | l :: rest, xs => (xs.map (keyOf k h l), xs.map (valueOf k h l)) :: layerRows rest (layer k h l xs)

/-- The hidden states behind the last layer. -/
def hidden : List Layer → List Vec → List Vec
  | [], xs => xs
  | l :: rest, xs => hidden rest (layer k h l xs)

variable (w : Weights)

/-- The hidden states before the first layer. -/
def embeddings (ts : List Token) : List Vec := ts.mapIdx (embed w)

/-- **The key and value rows of a text**, per layer one of each for every position. -/
def rows (ts : List Token) : List (List Vec × List Vec) := layerRows k h w.layers (embeddings w ts)

/-- **The logits of a text**, those of its last token. -/
def logits (ts : List Token) : Vec :=
  match (hidden k h w.layers (embeddings w ts)).getLast? with
  | some x => project k h w x
  | none => []

/-- Rows one behind the other, as a cache holds them. -/
def flat (rows : List (List Vec × List Vec)) : List (Vec × Vec) := rows.map fun p => (p.1.flatten, p.2.flatten)

variable {k h w}

/-! ## Rows of one width -/

section
variable {n width offset part t : Nat} {rows : List Vec}

theorem take_flatten : ∀ {rows : List Vec} {n : Nat}, (∀ r ∈ rows, r.length = width) →
    rows.flatten.take (n * width) = (rows.take n).flatten
  | _, 0, _ => by rw [Nat.zero_mul]; rfl
  | [], _ + 1, _ => by rw [List.take_nil]; exact List.take_nil
  | r :: rows, n + 1, hrows => by
    obtain ⟨hr, hrest⟩ := List.forall_mem_cons.1 hrows
    have hadd : (n + 1) * width = r.length + n * width := by rw [hr, Nat.add_mul, Nat.one_mul, Nat.add_comm]
    rw [List.flatten_cons, hadd, List.take_length_add_append, take_flatten hrest, List.take_succ_cons,
      List.flatten_cons]

theorem drop_flatten : ∀ {rows : List Vec} {n : Nat}, (∀ r ∈ rows, r.length = width) →
    rows.flatten.drop (n * width) = (rows.drop n).flatten
  | _, 0, _ => by rw [Nat.zero_mul]; rfl
  | [], _ + 1, _ => by rw [List.drop_nil]; exact List.drop_nil
  | r :: rows, n + 1, hrows => by
    obtain ⟨hr, hrest⟩ := List.forall_mem_cons.1 hrows
    have hadd : (n + 1) * width = r.length + n * width := by rw [hr, Nat.add_mul, Nat.one_mul, Nat.add_comm]
    rw [List.flatten_cons, hadd, List.drop_length_add_append, drop_flatten hrest, List.drop_succ_cons]

theorem headRow_flatten (hrows : ∀ r ∈ rows, r.length = width) (ht : t < rows.length) (hpart : offset + part ≤ width) :
    headRow rows.flatten width part offset t = (rows[t].drop offset).take part := by
  have hlen : rows[t].length = width := hrows _ (List.getElem_mem ht)
  rw [headRow, ← List.drop_drop, drop_flatten hrows, List.drop_eq_getElem_cons ht, List.flatten_cons,
    List.drop_append_of_le_length (by omega), List.take_append_of_le_length (by rw [List.length_drop]; omega)]

theorem map_headRow_flatten (hrows : ∀ r ∈ rows, r.length = width) (hpart : offset + part ≤ width) :
    (List.range rows.length).map (headRow rows.flatten width part offset) =
      rows.map fun row => (row.drop offset).take part := by
  refine List.ext_getElem (by simp) fun t h₁ h₂ => ?_
  have ht : t < rows.length := by rwa [List.length_map] at h₂
  rw [List.getElem_map, List.getElem_range, List.getElem_map, headRow_flatten hrows ht hpart]

end

theorem headOffset_add_le (v : h.Valid) {i : Nat} (hi : i < h.heads) : headOffset h i + h.headWidth ≤ h.rowWidth := by
  have hmul : h.headsKV * (h.heads / h.headsKV) = h.heads := Nat.mul_div_cancel' (Nat.dvd_of_mod_eq_zero v.heads_mod)
  have hlt : i / (h.heads / h.headsKV) < h.headsKV := by
    refine Nat.div_lt_of_lt_mul ?_
    rwa [Nat.mul_comm, hmul]
  rw [headOffset, Hyperparameters.rowWidth, ← Nat.succ_mul]
  exact Nat.mul_le_mul_right _ hlt

/-- **Attention to flat rows is attention to the rows.** -/
theorem attend_flatten (v : h.Valid) (query : Vec) {keys values : List Vec}
    (hkeys : ∀ r ∈ keys, r.length = h.rowWidth) (hvalues : ∀ r ∈ values, r.length = h.rowWidth)
    (hlen : values.length = keys.length) :
    attend k h query keys.flatten values.flatten keys.length = attention k h query keys values := by
  rw [attend, attention, List.flatMap_def, List.flatMap_def]
  congr 1
  refine List.map_congr_left fun i hi => ?_
  have hpart := headOffset_add_le v (List.mem_range.1 hi)
  have hscores : scoresOfHead k h query keys.flatten keys.length i = scores k h query keys i := by
    have hmap := congrArg (List.map fun key => k.dot ((query.drop (i * h.headWidth)).take h.headWidth) key *
      (Single.one / (Single.ofNat h.headWidth).sqrt)) (map_headRow_flatten hkeys hpart)
    rw [List.map_map, List.map_map] at hmap
    exact congrArg k.softmax hmap
  have hlength : (scores k h query keys i).length = values.length := by
    rw [scores, k.length_softmax, List.length_map, hlen]
  -- there the values are found by the index of their score, here they are zipped with the scores
  have hzip : (scores k h query keys i).zipIdx.map
      (Prod.map id (headRow values.flatten h.rowWidth h.headWidth (headOffset h i))) =
      ((scores k h query keys i).zip values).map (Prod.map id (headPart h i)) := by
    have hmap := map_headRow_flatten hvalues hpart
    rw [List.zipIdx_eq_zip_range', hlength, ← List.range_eq_range', ← List.zip_map_right, ← List.zip_map_right, hmap]
    rfl
  have hfold := congrArg (List.foldl (fun out (p : Single × Vec) => Vec.update (fun o v => o + p.1 * v) out p.2)
    (List.replicate h.headWidth .zero)) hzip
  rw [List.foldl_map, List.foldl_map] at hfold
  rw [weightedValues, hscores]
  exact hfold

/-! ## More positions -/

@[simp] theorem length_layer (l : Layer) (xs : List Vec) : (layer k h l xs).length = xs.length := by
  rw [layer, List.length_mapIdx]

/-- **A layer is causal**: what it makes of some positions does not depend on those behind them. -/
theorem take_layer (l : Layer) (xs ys : List Vec) : (layer k h l (xs ++ ys)).take xs.length = layer k h l xs := by
  refine List.ext_getElem (by simp) fun p h₁ h₂ => ?_
  have hp : p < xs.length := by rwa [length_layer] at h₂
  have htake : ∀ f : Vec → Vec, ((xs ++ ys).map f).take (p + 1) = (xs.map f).take (p + 1) := fun f => by
    rw [List.map_append, List.take_append_of_le_length (by rw [List.length_map]; omega)]
  rw [List.getElem_take]
  simp only [layer, List.getElem_mapIdx, htake, List.getElem_append_left hp]

theorem layer_concat (l : Layer) (xs : List Vec) (x : Vec) : layer k h l (xs ++ [x]) = layer k h l xs ++
    [fedForward k h l (attended k l x (attention k h (queryOf k h l x) ((xs ++ [x]).map (keyOf k h l))
      ((xs ++ [x]).map (valueOf k h l))))] := by
  have hsplit := List.take_append_drop xs.length (layer k h l (xs ++ [x]))
  have htake : ∀ f : Vec → Vec, ((xs ++ [x]).map f).take (xs.length + 1) = (xs ++ [x]).map f := fun f =>
    List.take_of_length_le (by simp)
  have hlast : (layer k h l (xs ++ [x])).drop xs.length = [fedForward k h l (attended k l x (attention k h
      (queryOf k h l x) ((xs ++ [x]).map (keyOf k h l)) ((xs ++ [x]).map (valueOf k h l))))] := by
    rw [layer, List.mapIdx_concat, List.drop_left' (by rw [List.length_mapIdx]), htake, htake]
  rw [take_layer, hlast] at hsplit
  exact hsplit.symm

theorem length_of_mem_layerRows (v : h.Valid) : ∀ {ls : List Layer} {xs : List Vec}, (∀ l ∈ ls, l.Filled h) →
    ∀ p ∈ layerRows k h ls xs, (∀ r ∈ p.1, r.length = h.rowWidth) ∧ ∀ r ∈ p.2, r.length = h.rowWidth
  | [], _, _, _, hp => by cases hp
  | l :: ls, xs, hf, p, hp => by
    obtain ⟨hl, hls⟩ := List.forall_mem_cons.1 hf
    rcases List.mem_cons.1 hp with rfl | hp
    · refine ⟨fun r hr => ?_, fun r hr => ?_⟩
      · obtain ⟨x, -, rfl⟩ := List.mem_map.1 hr
        exact length_keyOf v hl x
      · obtain ⟨x, -, rfl⟩ := List.mem_map.1 hr
        exact length_valueOf v hl x
    · exact length_of_mem_layerRows v hls p hp

theorem take_layerRows : ∀ (ls : List Layer) (xs ys : List Vec), (layerRows k h ls (xs ++ ys)).map
    (fun p => (p.1.take xs.length, p.2.take xs.length)) = layerRows k h ls xs
  | [], _, _ => rfl
  | l :: ls, xs, ys => by
    -- the next layers run on what this one makes, of which the front is what it makes of the front
    have hmap : ∀ f : Vec → Vec, ((xs ++ ys).map f).take xs.length = xs.map f := fun f => by
      rw [← List.map_take, List.take_left]
    have hlayer : layer k h l (xs ++ ys) = layer k h l xs ++ (layer k h l (xs ++ ys)).drop xs.length := by
      rw [← take_layer l xs ys]
      exact (List.take_append_drop _ _).symm
    have ih := take_layerRows ls (layer k h l xs) ((layer k h l (xs ++ ys)).drop xs.length)
    rw [← hlayer, length_layer] at ih
    rw [layerRows, layerRows, List.map_cons, hmap, hmap, ih]

/-- **A step through the layers from the rows of some positions gives the rows of one more.** -/
theorem stepLayers_flat (v : h.Valid) : ∀ (ls : List Layer) (xs : List Vec) (x : Vec), (∀ l ∈ ls, l.Filled h) →
    ∃ y, stepLayers k h xs.length ls (flat (layerRows k h ls xs)) x = (flat (layerRows k h ls (xs ++ [x])), y) ∧
      hidden k h ls (xs ++ [x]) = hidden k h ls xs ++ [y]
  | [], xs, x, _ => ⟨x, rfl, rfl⟩
  | l :: ls, xs, x, hf => by
    obtain ⟨-, hls⟩ := List.forall_mem_cons.1 hf
    have hflat : ∀ f : Vec → Vec, (xs.map f).flatten ++ f x = ((xs ++ [x]).map f).flatten := fun f => by
      rw [List.map_append, List.flatten_append, List.map_singleton, List.flatten_singleton]
    obtain ⟨hkeys, hvalues⟩ := length_of_mem_layerRows (k := k) v hf _ (List.mem_cons_self (l := layerRows k h ls
      (layer k h l (xs ++ [x]))))
    have hattend := attend_flatten (k := k) v (queryOf k h l x) hkeys hvalues (by simp)
    rw [List.length_map, List.length_append, List.length_singleton] at hattend
    -- the next layers step from the rows of what this one made of the first positions
    obtain ⟨y, hstep, hhidden⟩ := stepLayers_flat v ls (layer k h l xs)
      (fedForward k h l (attended k l x (attention k h (queryOf k h l x) ((xs ++ [x]).map (keyOf k h l))
        ((xs ++ [x]).map (valueOf k h l))))) hls
    rw [length_layer, ← layer_concat] at hstep
    rw [← layer_concat] at hhidden
    refine ⟨y, ?_, hhidden⟩
    simp only [layerRows, flat, List.map_cons, stepLayers, stepLayer, hflat, hattend]
    rw [show (List.map (fun p : List Vec × List Vec => (p.1.flatten, p.2.flatten)) (layerRows k h ls
      (layer k h l xs))) = flat (layerRows k h ls (layer k h l xs)) from rfl, hstep]
    rfl

/-! ## Texts -/

@[simp] theorem length_embeddings (ts : List Token) : (embeddings w ts).length = ts.length := by
  rw [embeddings, List.length_mapIdx]

theorem embeddings_concat (ts : List Token) (t : Token) :
    embeddings w (ts ++ [t]) = embeddings w ts ++ [embed w ts.length t] := List.mapIdx_concat

/-- **Tokens evaluated on top of the rows of a text** give the rows of the longer text, and its logits. -/
theorem stepTokens_flat (v : h.Valid) (f : w.Filled h) : ∀ (us ts : List Token) (x : Vec),
    (stepTokens k h w ts.length us (flat (rows k h w ts), x)).1 = flat (rows k h w (ts ++ us)) ∧
      (us ≠ [] → project k h w (stepTokens k h w ts.length us (flat (rows k h w ts), x)).2 =
        logits k h w (ts ++ us))
  | [], ts, x => by
    rw [List.append_nil]
    exact ⟨rfl, fun hne => absurd rfl hne⟩
  | u :: us, ts, x => by
    obtain ⟨y, hstep, hhidden⟩ := stepLayers_flat (k := k) v w.layers (embeddings w ts) (embed w ts.length u) f.layers
    rw [length_embeddings, ← embeddings_concat] at hstep
    rw [← embeddings_concat] at hhidden
    obtain ⟨ihrows, ihlogits⟩ := stepTokens_flat v f us (ts ++ [u]) y
    rw [List.length_append, List.length_singleton, List.append_assoc, List.singleton_append] at ihrows ihlogits
    have hnext : stepTokens k h w ts.length (u :: us) (flat (rows k h w ts), x) =
        stepTokens k h w (ts.length + 1) us (flat (rows k h w (ts ++ [u])), y) :=
      congrArg (stepTokens k h w (ts.length + 1) us) hstep
    rw [hnext]
    refine ⟨ihrows, fun _ => ?_⟩
    by_cases hus : us = []
    · rw [hus, logits, hhidden, List.getLast?_concat]
      rfl
    · exact ihlogits hus

/-- **The rows of the front of a text** are the front of its rows. -/
theorem flat_rows_take (v : h.Valid) (f : w.Filled h) {ts : List Token} {n : Nat} (hn : n ≤ ts.length) :
    flat (rows k h w (ts.take n)) =
      (flat (rows k h w ts)).map fun p => (p.1.take (n * h.rowWidth), p.2.take (n * h.rowWidth)) := by
  have hembed : embeddings w ts = embeddings w (ts.take n) ++
      (ts.drop n).mapIdx fun i t => embed w (i + (ts.take n).length) t := by
    rw [embeddings, embeddings, ← List.mapIdx_append, List.take_append_drop]
  have htake := take_layerRows (k := k) (h := h) w.layers (embeddings w (ts.take n))
    ((ts.drop n).mapIdx fun i t => embed w (i + (ts.take n).length) t)
  rw [← hembed, length_embeddings, List.length_take, Nat.min_eq_left hn] at htake
  rw [rows, ← htake, flat, flat, rows, List.map_map, List.map_map]
  refine List.map_congr_left fun p hp => ?_
  obtain ⟨hkeys, hvalues⟩ := length_of_mem_layerRows v f.layers p hp
  simp only [Function.comp, take_flatten hkeys, take_flatten hvalues]

end Uncached
end CausalLM.Decoder
