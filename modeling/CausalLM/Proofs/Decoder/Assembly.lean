import CausalLM.Decoder.Weights
import CausalLM.Proofs.Outcome
import Mathlib.Data.List.Nodup
import Mathlib.Data.List.Basic
/-!
# Proofs.Decoder.Assembly — a decoder out of a store

The tensors of a decoder are moved out of the store one after the other, under names that are made up on the way.  As no
two of these names are equal (`nodup_names`), what is moved is what stood there at first, so that the moves are look-ups
in one list of names and shapes (`map_takeEach`, `map_takeAll`).  A decoder is assembled exactly if the store has every
tensor that the sizes ask for (`assembled_ofStore`).
-/
namespace CausalLM

/-- The store after the tensor of this name was moved out. -/
def WeightStore.without (s : WeightStore) (name : String) : WeightStore :=
  { s with tensors := Dictionary.erase name s.tensors }

theorem WeightStore.get?_without (s : WeightStore) (name k : String) :
    (s.without name).get? k = if k = name then none else s.get? k :=
  Dictionary.get?_erase name k s.tensors

namespace Decoder

/-- The tensors of a layer, in the order in which they are asked for. -/
def Layer.tensors (l : Layer) : List Tensor :=
  [l.attnNormWeight, l.attnNormBias, l.qkvWeight, l.qkvBias, l.attnOutWeight, l.attnOutBias, l.ffnNormWeight,
   l.ffnNormBias, l.upWeight, l.upBias, l.downWeight, l.downBias]

namespace Weights

/-- The tensors of a decoder, in the order in which they are asked for. -/
def tensors (w : Weights) : List Tensor :=
  [w.tokenEmbedding, w.positionEmbedding, w.outputNormWeight, w.outputNormBias] ++
    (w.layers.flatMap Layer.tensors ++ w.output.toList)

variable {s s' : WeightStore} {h : Hyperparameters} {name a b : String} {dims : List Nat} {i j n : Nat} {t : Tensor}
  {e : Error}

/-! ## What is asked for -/

/-- **The tensors of a layer**: what comes last in their names, and their shapes. -/
def layerShapes (h : Hyperparameters) : List (String × List Nat) :=
  [("attn_norm.weight", [h.width]), ("attn_norm.bias", [h.width]),
   ("attn_qkv.weight", [h.width, jointWidth h]), ("attn_qkv.bias", [jointWidth h]),
   ("attn_output.weight", [h.width, h.width]), ("attn_output.bias", [h.width]),
   ("ffn_norm.weight", [h.width]), ("ffn_norm.bias", [h.width]),
   ("ffn_up.weight", [h.width, h.feedForward]), ("ffn_up.bias", [h.feedForward]),
   ("ffn_down.weight", [h.feedForward, h.width]), ("ffn_down.bias", [h.width])]

/-- The tensors of layer `i` by name, with their shapes. -/
def layerNeeds (h : Hyperparameters) (i : Nat) : List (String × List Nat) :=
  (layerShapes h).map fun p => (layerName i p.1, p.2)

/-- The tensors that stand in no layer. -/
def outerNeeds (h : Hyperparameters) : List (String × List Nat) :=
  [("token_embd.weight", [h.width, h.vocab]), ("position_embd.weight", [h.width, h.context]),
   ("output_norm.weight", [h.width]), ("output_norm.bias", [h.width])]

/-- **The tensors that every decoder of these sizes has**, with their shapes. -/
def needs (h : Hyperparameters) : List (String × List Nat) :=
  outerNeeds h ++ (List.range h.layers).flatMap (layerNeeds h)

/-- What is asked for in all: an output projection only if there is one. -/
def allNeeds (h : Hyperparameters) (hasOutput : Bool) : List (String × List Nat) :=
  needs h ++ if hasOutput then [(outputName, [h.width, h.vocab])] else []

/-- The names under which the store may be asked. -/
def names (h : Hyperparameters) : List String := (allNeeds h true).map Prod.fst

/-- The store has a tensor of this name and shape. -/
def Fits (s : WeightStore) (need : String × List Nat) : Prop := ∃ t, s.get? need.1 = some t ∧ t.dims = need.2

/-- **The store has every tensor that the sizes ask for.** -/
structure Complete (s : WeightStore) (h : Hyperparameters) : Prop where
  required : ∀ need ∈ needs h, Fits s need
  output : ∀ t, s.get? outputName = some t → t.dims = [h.width, h.vocab]

/-! ## What is made of it -/

/-- **The tensors of the layer stand in the store under the names of layer `i`.** -/
structure LayerOf (s : WeightStore) (i : Nat) (l : Layer) : Prop where
  attnNormWeight : s.get? (layerName i "attn_norm.weight") = some l.attnNormWeight
  attnNormBias : s.get? (layerName i "attn_norm.bias") = some l.attnNormBias
  qkvWeight : s.get? (layerName i "attn_qkv.weight") = some l.qkvWeight
  qkvBias : s.get? (layerName i "attn_qkv.bias") = some l.qkvBias
  attnOutWeight : s.get? (layerName i "attn_output.weight") = some l.attnOutWeight
  attnOutBias : s.get? (layerName i "attn_output.bias") = some l.attnOutBias
  ffnNormWeight : s.get? (layerName i "ffn_norm.weight") = some l.ffnNormWeight
  ffnNormBias : s.get? (layerName i "ffn_norm.bias") = some l.ffnNormBias
  upWeight : s.get? (layerName i "ffn_up.weight") = some l.upWeight
  upBias : s.get? (layerName i "ffn_up.bias") = some l.upBias
  downWeight : s.get? (layerName i "ffn_down.weight") = some l.downWeight
  downBias : s.get? (layerName i "ffn_down.bias") = some l.downBias

/-- **The decoder is that of the store**: each of its tensors is the one of its name. -/
structure Assembled (s : WeightStore) (h : Hyperparameters) (w : Weights) : Prop where
  tokenEmbedding : s.get? "token_embd.weight" = some w.tokenEmbedding
  positionEmbedding : s.get? "position_embd.weight" = some w.positionEmbedding
  outputNormWeight : s.get? "output_norm.weight" = some w.outputNormWeight
  outputNormBias : s.get? "output_norm.bias" = some w.outputNormBias
  output : w.output = s.get? outputName
  head : w.head = (s.get? outputName).getD w.tokenEmbedding
  length_layers : w.layers.length = h.layers
  layers : ∀ i l, w.layers[i]? = some l → LayerOf s i l

/-! ## Names -/

/-- The digits of a layer end at the first point, and its number is read off them. -/
theorem layerName_inj : layerName i a = layerName j b ↔ i = j ∧ a = b := by
  refine ⟨fun heq => ?_, fun ⟨hi, ha⟩ => by rw [hi, ha]⟩
  have htext : ∀ k (c : String),
      (layerName k c).toList = "blk.".toList ++ (Nat.toDigits 10 k ++ '.' :: c.toList) := fun k c => by
    simp [layerName]
  have hdigits : ∀ k (c : String), (Nat.toDigits 10 k ++ '.' :: c.toList).takeWhile Char.isDigit = Nat.toDigits 10 k :=
    fun k c => by
      rw [List.takeWhile_append_of_pos fun d hd => Nat.isDigit_of_mem_toDigits (by decide) (by decide) hd,
        List.takeWhile_cons_of_neg (by decide), List.append_nil]
  have hrest := congrArg String.toList heq
  rw [htext, htext, List.append_cancel_left_eq] at hrest
  have hfront := congrArg (List.takeWhile Char.isDigit) hrest
  rw [hdigits, hdigits] at hfront
  rw [hfront, List.append_cancel_left_eq, List.cons.injEq, String.toList_inj] at hrest
  have hnumber := congrArg (Nat.ofDigitChars 10 · 0) hfront
  simp only [Nat.ofDigitChars_toDigits (by decide : 1 < 10) (by decide : 10 ≤ 10)] at hnumber
  exact ⟨hnumber, hrest.2⟩

theorem head?_layerName (i : Nat) (a : String) : (layerName i a).toList.head? = some 'b' := by simp [layerName]

theorem map_layerNeeds (h : Hyperparameters) (i : Nat) :
    (layerNeeds h i).map Prod.fst = ((layerShapes h).map Prod.fst).map (layerName i) := by
  rw [layerNeeds, List.map_map, List.map_map]
  rfl

theorem exists_of_mem_layerNeeds (hname : name ∈ (layerNeeds h i).map Prod.fst) : ∃ a, name = layerName i a := by
  rw [map_layerNeeds] at hname
  obtain ⟨a, -, rfl⟩ := List.mem_map.1 hname
  exact ⟨a, rfl⟩

theorem map_needs (h : Hyperparameters) : (needs h).map Prod.fst =
    (outerNeeds h).map Prod.fst ++ (List.range h.layers).flatMap fun i => (layerNeeds h i).map Prod.fst := by
  rw [needs, List.map_append, List.map_flatMap]

theorem nodup_layers (h : Hyperparameters) :
    ((List.range h.layers).flatMap fun i => (layerNeeds h i).map Prod.fst).Nodup := by
  refine List.nodup_flatMap.2 ⟨fun i _ => ?_, List.nodup_range.imp fun {i j} hij name hi hj => ?_⟩
  · rw [map_layerNeeds]
    exact List.Nodup.map (fun a b hab => (layerName_inj.1 hab).2) (by simp [layerShapes])
  · obtain ⟨a, rfl⟩ := exists_of_mem_layerNeeds hi
    obtain ⟨b, hb⟩ := exists_of_mem_layerNeeds hj
    exact hij (layerName_inj.1 hb).1

/-- No tensor outside has the name of one in a layer. -/
theorem not_mem_layers (hname : name ∈ outputName :: (outerNeeds h).map Prod.fst) :
    name ∉ (List.range h.layers).flatMap fun i => (layerNeeds h i).map Prod.fst := by
  intro hlayer
  obtain ⟨i, -, hi⟩ := List.mem_flatMap.1 hlayer
  obtain ⟨a, rfl⟩ := exists_of_mem_layerNeeds hi
  have hhead := head?_layerName i a
  simp only [outerNeeds, outputName, List.map_cons, List.map_nil, List.mem_cons, List.not_mem_nil, or_false] at hname
  rcases hname with hname | hname | hname | hname | hname <;> rw [hname] at hhead <;> exact absurd hhead (by decide)

/-- **No two tensors of a decoder have one name.** -/
theorem nodup_names (h : Hyperparameters) : (names h).Nodup := by
  have houter : (outputName :: (outerNeeds h).map Prod.fst).Nodup := by simp [outerNeeds, outputName]
  have hall : (outputName :: (needs h).map Prod.fst).Nodup := by
    rw [map_needs, ← List.cons_append]
    exact houter.append (nodup_layers h) fun name hname hlayer => not_mem_layers hname hlayer
  rw [names, allNeeds, List.map_append]
  exact List.nodup_append_comm.1 hall

theorem nodup_allNeeds (h : Hyperparameters) (hasOutput : Bool) : ((allNeeds h hasOutput).map Prod.fst).Nodup := by
  cases hasOutput with
  | true => exact nodup_names h
  | false =>
    refine List.Nodup.sublist (List.Sublist.map Prod.fst ?_) (nodup_names h)
    exact List.Sublist.append_left (List.nil_sublist _) (needs h)

/-! ## Moves are look-ups -/

/-- The tensor of this name, if it has this shape. -/
def find (s : WeightStore) (need : String × List Nat) : Except Error Tensor := (take need.1 need.2 s).map Prod.fst

/-- Moves one tensor after the other. -/
def takeEach (needs : List (String × List Nat)) : StateT WeightStore (Except Error) (List Tensor) :=
  needs.mapM fun need => take need.1 need.2

theorem take_eq_ok_iff :
    take name dims s = .ok (t, s') ↔ (s.get? name = some t ∧ t.dims = dims) ∧ s.without name = s' := by
  simp only [take, ↓throw_bind, bind_eq_ok_iff, guard_eq_ok_iff, WeightStore.take, Prod.exists]
  cases s.get? name with
  | none => simp
  | some t' =>
    constructor
    · rintro ⟨t'', s'', h, hdims, heq⟩
      cases h
      cases heq
      exact ⟨⟨rfl, Decidable.not_not.1 hdims⟩, rfl⟩
    · rintro ⟨⟨h, hdims⟩, rfl⟩
      cases h
      exact ⟨_, _, rfl, not_not_intro hdims, rfl⟩

theorem of_take_eq_error (h : take name dims s = .error e) : ∃ why, e = .formatMismatch why := by
  rcases bind_eq_error_iff.1 h with h | ⟨⟨t, s'⟩, -, h⟩
  · rw [WeightStore.take] at h
    split at h
    · cases h
    · cases h
      exact ⟨_, rfl⟩
  · dsimp only at h
    split at h
    · cases h
      exact ⟨_, rfl⟩
    · cases h

theorem find_eq_ok_iff {need : String × List Nat} : find s need = .ok t ↔ s.get? need.1 = some t ∧ t.dims = need.2 := by
  rw [find, map_eq_ok_iff, Prod.exists]
  constructor
  · rintro ⟨t', s', h, rfl⟩
    exact (take_eq_ok_iff.1 h).1
  · intro h
    exact ⟨t, s.without need.1, take_eq_ok_iff.2 ⟨h, rfl⟩, rfl⟩

theorem of_find_eq_error {need : String × List Nat} (h : find s need = .error e) : ∃ why, e = .formatMismatch why :=
  of_take_eq_error (map_eq_error_iff.1 h)

theorem find_congr {need : String × List Nat} (h : s.get? need.1 = s'.get? need.1) : find s need = find s' need := by
  rw [find, find, take, take, WeightStore.take, WeightStore.take, h]
  cases s'.get? need.1 with
  | none => rfl
  | some t =>
    rw [ok_bind, ok_bind]
    dsimp only
    split <;> rfl

theorem mapM_find_congr : ∀ {needs : List (String × List Nat)}, (∀ need ∈ needs, s.get? need.1 = s'.get? need.1) →
    needs.mapM (find s) = needs.mapM (find s')
  | [], _ => rfl
  | need :: needs, h => by
    obtain ⟨hneed, hneeds⟩ := List.forall_mem_cons.1 h
    rw [List.mapM_cons, List.mapM_cons, find_congr hneed, mapM_find_congr hneeds]

/-- **Moves under names that differ are look-ups**: each finds what the store had at first. -/
theorem map_takeEach : ∀ {needs : List (String × List Nat)} {s : WeightStore}, (needs.map Prod.fst).Nodup →
    (takeEach needs s).map Prod.fst = needs.mapM (find s)
  | [], _, _ => rfl
  | need :: needs, s, hnames => by
    rw [List.map_cons, List.nodup_cons] at hnames
    rw [takeEach, List.mapM_cons, List.mapM_cons]
    change (take need.1 need.2 s >>= fun p => (do
      let rest ← takeEach needs
      return p.1 :: rest : StateT WeightStore (Except Error) (List Tensor)) p.2).map Prod.fst = _
    cases htake : take need.1 need.2 s with
    | error e =>
      rw [find, htake]
      rfl
    | ok p =>
      obtain ⟨t, s'⟩ := p
      obtain ⟨hfound, rfl⟩ := take_eq_ok_iff.1 htake
      -- the other names are not the one that is gone
      have hrest : needs.mapM (find s) = needs.mapM (find (s.without need.1)) := mapM_find_congr fun other hother => by
        have hne : other.1 ≠ need.1 := fun heq => hnames.1 (List.mem_map.2 ⟨other, hother, heq⟩)
        rw [WeightStore.get?_without, if_neg hne]
      rw [find_eq_ok_iff.2 hfound, hrest, ← map_takeEach hnames.2, ok_bind, ok_bind]
      change (takeEach needs (s.without need.1) >>= fun q => _).map Prod.fst = _
      cases takeEach needs (s.without need.1) <;> rfl

/-- What is looked up is what stands there, in order. -/
theorem of_mapM_find : ∀ {needs : List (String × List Nat)} {ts : List Tensor}, needs.mapM (find s) = .ok ts →
    ts.map some = needs.map (fun need => s.get? need.1) ∧ ∀ need ∈ needs, Fits s need
  | [], ts, h => by
    cases h
    exact ⟨rfl, fun _ hneed => by cases hneed⟩
  | need :: needs, ts, h => by
    rw [List.mapM_cons] at h
    obtain ⟨t, ht, h⟩ := bind_eq_ok_iff.1 h
    obtain ⟨rest, hrest, h⟩ := bind_eq_ok_iff.1 h
    cases h
    obtain ⟨hmap, hall⟩ := of_mapM_find hrest
    obtain ⟨hget, hdims⟩ := find_eq_ok_iff.1 ht
    exact ⟨by rw [List.map_cons, List.map_cons, hmap, hget], List.forall_mem_cons.2 ⟨⟨t, hget, hdims⟩, hall⟩⟩

theorem exists_mapM_find : ∀ {needs : List (String × List Nat)}, (∀ need ∈ needs, Fits s need) →
    ∃ ts, needs.mapM (find s) = .ok ts
  | [], _ => ⟨[], rfl⟩
  | need :: needs, h => by
    obtain ⟨⟨t, ht⟩, hneeds⟩ := List.forall_mem_cons.1 h
    obtain ⟨ts, hts⟩ := exists_mapM_find hneeds
    rw [List.mapM_cons, find_eq_ok_iff.2 ht, hts]
    exact ⟨t :: ts, rfl⟩

theorem of_mapM_find_eq_error : ∀ {needs : List (String × List Nat)}, needs.mapM (find s) = .error e →
    ∃ why, e = .formatMismatch why
  | [], h => by cases h
  | need :: needs, h => by
    rw [List.mapM_cons] at h
    rcases bind_eq_error_iff.1 h with h | ⟨t, -, h⟩
    · exact of_find_eq_error h
    rcases bind_eq_error_iff.1 h with h | ⟨ts, -, h⟩
    · exact of_mapM_find_eq_error h
    · cases h

/-! ## The whole decoder -/

theorem map_takeLayer (h : Hyperparameters) (i : Nat) :
    Layer.tensors <$> takeLayer h i = takeEach (layerNeeds h i) := by
  simp [takeLayer, takeEach, layerNeeds, layerShapes, Layer.tensors]

theorem map_takeLayers (h : Hyperparameters) : ∀ n i : Nat,
    List.flatMap Layer.tensors <$> takeLayers h i n = takeEach ((List.range' i n).flatMap (layerNeeds h))
  | 0, _ => rfl
  | n + 1, i => by
    rw [List.range'_succ, List.flatMap_cons, takeEach, List.mapM_append, ← takeEach, ← takeEach, ← map_takeLayers h n,
      ← map_takeLayer]
    simp [takeLayers]

/-- **All moves are one sequence.** -/
theorem map_takeAll (h : Hyperparameters) (hasOutput : Bool) :
    tensors <$> takeAll h hasOutput = takeEach (allNeeds h hasOutput) := by
  rw [allNeeds, needs, List.append_assoc, takeEach, List.mapM_append, List.mapM_append, ← takeEach, ← takeEach,
    List.range_eq_range', ← map_takeLayers]
  cases hasOutput <;> simp [takeAll, tensors, outerNeeds, takeEach, takeOutput]

/-- **Assembling a decoder is looking its tensors up**, one after the other. -/
theorem map_ofStore (s : WeightStore) (h : Hyperparameters) :
    (ofStore s h).map tensors = (allNeeds h (s.get? outputName).isSome).mapM (find s) := by
  rw [← map_takeEach (nodup_allNeeds h _), ← map_takeAll]
  change (takeAll h _ s >>= fun p => _).map tensors =
    ((takeAll h _ s) >>= fun p => pure (tensors p.1, p.2)).map Prod.fst
  cases takeAll h (s.get? outputName).isSome s <;> rfl

theorem length_flatMap_tensors (ls : List Layer) : (ls.flatMap Layer.tensors).length = 12 * ls.length := by
  simp [List.length_flatMap, Layer.tensors, Nat.mul_comm]

theorem length_flatMap_layerNeeds (h : Hyperparameters) (is : List Nat) :
    (is.flatMap (layerNeeds h)).length = 12 * is.length := by
  simp [List.length_flatMap, layerNeeds, layerShapes, Nat.mul_comm]

theorem layer_eq_of_tensors {l l' : Layer} (htensors : l.tensors = l'.tensors) : l = l' := by
  cases l
  cases l'
  simpa [Layer.tensors] using htensors

theorem layerOf_of_tensors {l : Layer}
    (htensors : l.tensors.map some = (layerNeeds h i).map fun need => s.get? need.1) :
    LayerOf s i l := by
  simp only [Layer.tensors, layerNeeds, layerShapes, List.map_cons, List.map_nil, List.cons.injEq, and_true] at htensors
  obtain ⟨h₁, h₂, h₃, h₄, h₅, h₆, h₇, h₈, h₉, h₁₀, h₁₁, h₁₂⟩ := htensors
  exact ⟨h₁.symm, h₂.symm, h₃.symm, h₄.symm, h₅.symm, h₆.symm, h₇.symm, h₈.symm, h₉.symm, h₁₀.symm, h₁₁.symm, h₁₂.symm⟩

/-- Every layer has its own twelve of all tensors. -/
theorem layerOf_of_flatMap : ∀ {ls : List Layer} {i : Nat},
    (ls.flatMap Layer.tensors).map some =
      ((List.range' i ls.length).flatMap (layerNeeds h)).map (fun need => s.get? need.1) →
    ∀ j l, ls[j]? = some l → LayerOf s (i + j) l
  | [], _, _, j, l, hl => by cases hl
  | l :: ls, i, htensors, j, l', hl => by
    rw [List.length_cons, List.range'_succ, List.flatMap_cons, List.flatMap_cons, List.map_append,
      List.map_append] at htensors
    obtain ⟨hlayer, hrest⟩ := List.append_inj htensors rfl
    cases j with
    | zero =>
      cases hl
      exact layerOf_of_tensors hlayer
    | succ j =>
      rw [Nat.add_comm j, ← Nat.add_assoc]
      exact layerOf_of_flatMap hrest j l' hl

theorem length_layers_of_tensors {w : Weights} {hasOutput : Bool}
    (hlength : w.tensors.length = (allNeeds h hasOutput).length) : w.layers.length = h.layers := by
  rw [tensors, allNeeds, needs, List.length_append, List.length_append, List.length_append, List.length_append,
    length_flatMap_tensors, length_flatMap_layerNeeds, List.length_range] at hlength
  have houtput : w.output.toList.length ≤ 1 := by cases w.output <;> simp
  have hneed : (if hasOutput then [(outputName, [h.width, h.vocab])] else []).length ≤ 1 := by cases hasOutput <;> simp
  have houter : (outerNeeds h).length = 4 := rfl
  simp only [List.length_cons, List.length_nil] at hlength
  omega

theorem assembled_of_tensors {w : Weights} (htensors : w.tensors.map some =
    (allNeeds h (s.get? outputName).isSome).map fun need => s.get? need.1) : Assembled s h w := by
  have hlength : w.layers.length = h.layers := length_layers_of_tensors (by simpa using congrArg List.length htensors)
  rw [tensors, allNeeds, needs, List.append_assoc, List.map_append, List.map_append, List.map_append,
    List.map_append] at htensors
  -- both lists are the four outside, twelve for each layer and the output, so they are cut at the same places
  obtain ⟨houter, hrest⟩ := List.append_inj htensors rfl
  obtain ⟨hlayers, houtput⟩ := List.append_inj hrest (by
    rw [List.length_map, List.length_map, length_flatMap_tensors, length_flatMap_layerNeeds, List.length_range,
      hlength])
  simp only [outerNeeds, List.map_cons, List.map_nil, List.cons.injEq, and_true] at houter
  obtain ⟨h₁, h₂, h₃, h₄⟩ := houter
  have houtput' : w.output = s.get? outputName := by
    cases hw : w.output <;> cases hs : s.get? outputName <;> simp_all
  refine ⟨h₁.symm, h₂.symm, h₃.symm, h₄.symm, houtput', by rw [head, houtput'], hlength, fun i l hl => ?_⟩
  rw [← hlength, List.range_eq_range'] at hlayers
  rw [← Nat.zero_add i]
  exact layerOf_of_flatMap hlayers i l hl

theorem of_ofStore {w : Weights} (hok : ofStore s h = .ok w) :
    Assembled s h w ∧ ∀ need ∈ allNeeds h (s.get? outputName).isSome, Fits s need := by
  have hfind := map_ofStore s h
  rw [hok] at hfind
  obtain ⟨htensors, hall⟩ := of_mapM_find hfind.symm
  exact ⟨assembled_of_tensors htensors, hall⟩

theorem complete_iff : Complete s h ↔ ∀ need ∈ allNeeds h (s.get? outputName).isSome, Fits s need := by
  rw [allNeeds, List.forall_mem_append]
  constructor
  · rintro ⟨hrequired, houtput⟩
    refine ⟨hrequired, ?_⟩
    cases hs : s.get? outputName with
    | none => simp
    | some t => simpa [Fits] using ⟨t, hs, houtput t hs⟩
  · rintro ⟨hrequired, houtput⟩
    refine ⟨hrequired, fun t ht => ?_⟩
    obtain ⟨t', ht', hdims⟩ : Fits s (outputName, [h.width, h.vocab]) := by simpa [ht] using houtput
    rw [ht] at ht'
    cases ht'
    exact hdims

theorem layers_eq_of_flatMap {ls ls' : List Layer} (hlength : ls.length = ls'.length)
    (htensors : ls.flatMap Layer.tensors = ls'.flatMap Layer.tensors) : ls = ls' := by
  induction ls generalizing ls' with
  | nil => exact (List.length_eq_zero_iff.1 hlength.symm).symm
  | cons l ls ih =>
    cases ls' with
    | nil => cases hlength
    | cons l' ls' =>
      rw [List.flatMap_cons, List.flatMap_cons] at htensors
      obtain ⟨hlayer, hrest⟩ := List.append_inj htensors rfl
      rw [layer_eq_of_tensors hlayer, ih (Nat.succ.inj hlength) hrest]

/-- Decoders with as many layers are told by their tensors. -/
theorem eq_of_tensors {w w' : Weights} (hlength : w.layers.length = w'.layers.length)
    (htensors : w.tensors = w'.tensors) : w = w' := by
  obtain ⟨houter, hrest⟩ := List.append_inj htensors rfl
  obtain ⟨hlayers, houtput⟩ := List.append_inj hrest (by rw [length_flatMap_tensors, length_flatMap_tensors, hlength])
  have hlayers' := layers_eq_of_flatMap hlength hlayers
  have houtput' := congrArg List.head? houtput
  rw [Option.head?_toList, Option.head?_toList] at houtput'
  cases w
  cases w'
  simp only [List.cons.injEq, and_true] at houter
  simp only [mk.injEq]
  exact ⟨houter.1, houter.2.1, houter.2.2.1, houter.2.2.2, houtput', hlayers'⟩

/-- **Nothing but the tensors of the decoder has a say**, also where it is refused. -/
theorem ofStore_congr (hnames : ∀ name ∈ names h, s'.get? name = s.get? name) : ofStore s' h = ofStore s h := by
  have hget : ∀ need ∈ allNeeds h true, s'.get? need.1 = s.get? need.1 := fun need hneed =>
    hnames _ (List.mem_map_of_mem hneed)
  have houtput : s'.get? outputName = s.get? outputName := hget (outputName, [h.width, h.vocab]) (by simp [allNeeds])
  have hfind : (ofStore s' h).map tensors = (ofStore s h).map tensors := by
    -- the output is asked for of both stores or of none
    rw [map_ofStore, map_ofStore, houtput]
    refine mapM_find_congr fun need hneed => hget need ?_
    rw [allNeeds, List.mem_append] at hneed ⊢
    refine hneed.imp_right fun hneed => ?_
    split at hneed
    · exact hneed
    · cases hneed
  cases hs : ofStore s h with
  | error e =>
    rw [hs] at hfind
    exact map_eq_error_iff.1 hfind
  | ok w =>
    rw [hs] at hfind
    obtain ⟨w', hs', htensors⟩ := map_eq_ok_iff.1 hfind
    have hlength : w'.layers.length = w.layers.length :=
      (of_ofStore hs').1.length_layers.trans (of_ofStore hs).1.length_layers.symm
    rw [hs', eq_of_tensors hlength htensors]

/-- **A decoder is assembled exactly if all its tensors are there and fit.**  Each tensor of it is then the one of its
name, no two are asked for under one name, all others are passed over, and what is refused is the format. -/
theorem assembled_ofStore (s : WeightStore) (h : Hyperparameters) :
    ((∃ w, ofStore s h = .ok w) ↔ Complete s h) ∧
      (∀ w, ofStore s h = .ok w → Assembled s h w) ∧
      (∀ e, ofStore s h = .error e → ∃ why, e = .formatMismatch why) ∧
      (names h).Nodup ∧
      ∀ other : WeightStore, (∀ name ∈ names h, other.get? name = s.get? name) → ofStore other h = ofStore s h := by
  refine ⟨⟨?_, ?_⟩, fun w hok => (of_ofStore hok).1, fun e herror => ?_, nodup_names h, fun other hnames => ?_⟩
  · rintro ⟨w, hok⟩
    exact complete_iff.2 (of_ofStore hok).2
  · intro hcomplete
    obtain ⟨ts, hfind⟩ := exists_mapM_find (complete_iff.1 hcomplete)
    rw [← map_ofStore] at hfind
    obtain ⟨w, hok, -⟩ := map_eq_ok_iff.1 hfind
    exact ⟨w, hok⟩
  · refine of_mapM_find_eq_error ((map_ofStore s h).symm.trans ?_)
    exact map_eq_error_iff.2 herror
  · exact ofStore_congr hnames

/-- The sizes of a decoder with two layers. -/
def twoLayers : Hyperparameters where
  architecture := "starcoder"
  vocab := 5
  context := 3
  width := 4
  heads := 2
  headsKV := 1
  layers := 2
  feedForward := 7
  epsilon := .one

/-- A store with all that is asked for, and a tensor that is not. -/
def stocked : WeightStore :=
  ⟨("rope_freqs.weight", ⟨#[], [9], .f32⟩) :: (needs twoLayers).map fun need => (need.1, ⟨#[], need.2, .f32⟩), 0, 0⟩

theorem assembled_ofStore_stocked : ∃ w, ofStore stocked twoLayers = .ok w ∧ Assembled stocked twoLayers w ∧
    w.layers.length = 2 ∧ w.head = w.tokenEmbedding := by
  obtain ⟨hiff, hassembled, -⟩ := assembled_ofStore stocked twoLayers
  have hget : ∀ need ∈ needs twoLayers, stocked.get? need.1 = some ⟨#[], need.2, .f32⟩ := by decide +kernel
  have houtput : stocked.get? outputName = none := by decide +kernel
  obtain ⟨w, hok⟩ := hiff.2 ⟨fun need hneed => ⟨_, hget need hneed, rfl⟩, fun t ht => by rw [houtput] at ht; cases ht⟩
  have hw := hassembled w hok
  exact ⟨w, hok, hw, hw.length_layers, by rw [hw.head, houtput, Option.getD_none]⟩

end Weights
end Decoder
end CausalLM
