import CausalLM.Decoder.Engine
import CausalLM.Proofs.Container.Limits
import CausalLM.Proofs.WeightStore
/-!
# Proofs.Decoder.Shapes — what loading guarantees

A model that was loaded has sizes that fit together (`Hyperparameters.Valid`) and weights of the shapes that the sizes
imply, every tensor with as many numbers as its shape says (`Weights.Filled`).  `valid_of_ofFile` is the guarantee
that everything about evaluation rests on.
-/
namespace CausalLM

/-! ## Sizes -/

/-- **The sizes of a model fit together.** -/
structure Hyperparameters.Valid (h : Hyperparameters) : Prop where
  pos : ∀ size ∈ h.sizes, 0 < size.2
  small : ∀ size ∈ h.sizes, size.2 < 2 ^ 32
  width_mod : h.width % h.heads = 0
  heads_mod : h.heads % h.headsKV = 0

namespace Hyperparameters

variable {h : Hyperparameters}

theorem valid_of_validate (hok : h.validate = .ok ()) : h.Valid := by
  rw [validate] at hok
  split at hok
  · cases hok
  rename_i hzero
  split at hok
  · cases hok
  rename_i hlarge
  split at hok
  · cases hok
  split at hok
  · cases hok
  rename_i hwidth hheads
  refine ⟨fun size hs => ?_, fun size hs => ?_, Decidable.not_not.1 hwidth, Decidable.not_not.1 hheads⟩
  · have := List.find?_eq_none.1 hzero size hs
    rw [beq_iff_eq] at this
    omega
  · have := List.find?_eq_none.1 hlarge size hs
    rw [decide_eq_true_eq, Word.max32] at this
    omega

theorem Valid.width_pos (v : h.Valid) : 0 < h.width := v.pos ("n_embd", h.width) (by simp [sizes])

theorem Valid.heads_pos (v : h.Valid) : 0 < h.heads := v.pos ("n_head", h.heads) (by simp [sizes])

theorem Valid.layers_pos (v : h.Valid) : 0 < h.layers := v.pos ("n_layer", h.layers) (by simp [sizes])

theorem Valid.vocab_pos (v : h.Valid) : 0 < h.vocab := v.pos ("n_vocab", h.vocab) (by simp [sizes])

theorem Valid.feedForward_pos (v : h.Valid) : 0 < h.feedForward := v.pos ("n_ff", h.feedForward) (by simp [sizes])

theorem Valid.heads_mul (v : h.Valid) : h.heads * h.headWidth = h.width :=
  Nat.mul_div_cancel' (Nat.dvd_of_mod_eq_zero v.width_mod)

theorem Valid.headsKV_le (v : h.Valid) : h.headsKV ≤ h.heads :=
  Nat.le_of_dvd v.heads_pos (Nat.dvd_of_mod_eq_zero v.heads_mod)

theorem Valid.headsKV_pos (v : h.Valid) : 0 < h.headsKV := v.pos ("n_head_kv", h.headsKV) (by simp [sizes])

/-- Every key and value head has query heads that read it. -/
theorem Valid.group_pos (v : h.Valid) : 0 < h.heads / h.headsKV := Nat.div_pos v.headsKV_le v.headsKV_pos

theorem Valid.rowWidth_le (v : h.Valid) : h.rowWidth ≤ h.width := by
  rw [← v.heads_mul]
  exact Nat.mul_le_mul_right _ v.headsKV_le

theorem Valid.rowWidth_small (v : h.Valid) : h.rowWidth < 2 ^ 32 :=
  Nat.lt_of_le_of_lt v.rowWidth_le (v.small ("n_embd", h.width) (by simp [sizes]))

theorem Valid.layer_small (v : h.Valid) : h.rowWidth * h.context ≤ Word.max64 := by
  have hcontext := v.small ("n_ctx", h.context) (by simp [sizes])
  have hle : h.rowWidth * h.context ≤ (2 ^ 32 - 1) * (2 ^ 32 - 1) :=
    Nat.mul_le_mul (Nat.le_pred_of_lt v.rowWidth_small) (Nat.le_pred_of_lt hcontext)
  exact Nat.le_trans hle (by decide)

theorem valid_of_ofMetadata {m : Container.Metadata} {name : String} (hok : ofMetadata m name = .ok h) : h.Valid := by
  simp only [ofMetadata, bind_eq_ok_iff] at hok
  obtain ⟨width, -, heads, -, context, -, layers, -, u, hvalidate, hok⟩ := hok
  cases hok
  exact valid_of_validate hvalidate

end Hyperparameters

/-! ## Tensors -/

/-- **The tensor has these dimensions, and as many numbers as they stand for.** -/
structure Tensor.Filled (t : Tensor) (dims : List Nat) : Prop where
  dims_eq : t.dims = dims
  size_eq : t.data.size = t.elements

namespace Tensor.Filled

variable {t : Tensor} {m n r : Nat}

theorem elements_vector (f : t.Filled [n]) : t.elements = n := by
  rw [elements, f.dims_eq]
  exact Nat.one_mul n

theorem length_vector (f : t.Filled [n]) : t.data.toList.length = n := by
  rw [Array.length_toList, f.size_eq, f.elements_vector]

theorem size_matrix (f : t.Filled [n, m]) : t.data.size = n * m := by
  rw [f.size_eq, elements, f.dims_eq, List.foldl_cons, List.foldl_cons, List.foldl_nil, Nat.one_mul]

theorem rowLength_matrix (f : t.Filled [n, m]) : t.rowLength = n := by
  rw [rowLength, f.dims_eq]
  rfl

theorem rows_matrix (f : t.Filled [n, m]) (hn : 0 < n) : t.rows = m := by
  rw [rows, f.rowLength_matrix, ← f.size_eq, f.size_matrix, Nat.mul_div_cancel_left m hn]

theorem row?_eq (f : t.Filled [n, m]) (hn : 0 < n) (hr : r < m) : t.row? r = some (t.rowData r) := by
  have hle : (r + 1) * n ≤ n * m := by
    rw [Nat.mul_comm n]
    exact Nat.mul_le_mul_right n hr
  rw [row?, f.rows_matrix hn, f.rowLength_matrix, f.size_matrix, if_pos ⟨hr, hle⟩]

theorem length_rowData (f : t.Filled [n, m]) (hr : r < m) : (t.rowData r).length = n := by
  have hle : (r + 1) * n ≤ n * m := by
    rw [Nat.mul_comm n]
    exact Nat.mul_le_mul_right n hr
  rw [rowData, Array.length_toList, Array.size_extract, f.rowLength_matrix, f.size_matrix, Nat.min_eq_left hle,
    Nat.add_mul, Nat.one_mul]
  omega

end Tensor.Filled

/-- Every tensor in the store has as many numbers as its dimensions stand for. -/
def WeightStore.Filled (s : WeightStore) : Prop := ∀ name t, s.get? name = some t → t.data.size = t.elements

namespace WeightStore

theorem size_of_decode {info : Container.TensorInfo} {raw : Bytes} {t : Tensor} (h : decode info raw = .ok t) :
    t.data.size = t.elements := by
  obtain ⟨hdims, hsize, hfits⟩ := of_decode h
  -- a product that was stopped would not fit in memory
  have hlt : info.elements * 4 < 2 ^ 47 := by rwa [Memory.fits, decide_eq_true_eq] at hfits
  have hprod : info.elements = min (info.dims.foldl (· * ·) 1) Word.max64 := Word.satProd_eq info.dims
  have hmax : Word.max64 = 2 ^ 64 - 1 := rfl
  rw [hsize, Tensor.elements, hdims]
  omega

theorem filled_of_loadInto {file : Bytes} {offset : Nat} : ∀ {infos : List Container.TensorInfo} {s s' : WeightStore},
    loadInto file offset s infos = .ok s' → s.Filled → s'.Filled
  | [], s, s', h, hs => by
    cases h
    exact hs
  | info :: rest, s, s', h, hs => by
    simp only [loadInto, bind_eq_ok_iff] at h
    obtain ⟨raw, -, t, ht, h⟩ := h
    refine filled_of_loadInto h fun name t' ht' => ?_
    rw [get?, Dictionary.get?_insert] at ht'
    split at ht'
    · cases ht'
      exact size_of_decode ht
    · exact hs name t' ht'

theorem filled_of_load {file : Bytes} {header : Container.Header} {s : WeightStore} (h : load file header = .ok s) :
    s.Filled :=
  filled_of_loadInto h fun name t ht => by cases ht

end WeightStore

namespace Decoder

/-! ## Weights -/

/-- **The tensors of a layer have the shapes that the sizes imply.** -/
structure Layer.Filled (h : Hyperparameters) (l : Layer) : Prop where
  attnNormWeight : l.attnNormWeight.Filled [h.width]
  attnNormBias : l.attnNormBias.Filled [h.width]
  qkvWeight : l.qkvWeight.Filled [h.width, Weights.jointWidth h]
  qkvBias : l.qkvBias.Filled [Weights.jointWidth h]
  attnOutWeight : l.attnOutWeight.Filled [h.width, h.width]
  attnOutBias : l.attnOutBias.Filled [h.width]
  ffnNormWeight : l.ffnNormWeight.Filled [h.width]
  ffnNormBias : l.ffnNormBias.Filled [h.width]
  upWeight : l.upWeight.Filled [h.width, h.feedForward]
  upBias : l.upBias.Filled [h.feedForward]
  downWeight : l.downWeight.Filled [h.feedForward, h.width]
  downBias : l.downBias.Filled [h.width]

/-- **The tensors of a decoder have the shapes that the sizes imply.** -/
structure Weights.Filled (h : Hyperparameters) (w : Weights) : Prop where
  tokenEmbedding : w.tokenEmbedding.Filled [h.width, h.vocab]
  positionEmbedding : w.positionEmbedding.Filled [h.width, h.context]
  outputNormWeight : w.outputNormWeight.Filled [h.width]
  outputNormBias : w.outputNormBias.Filled [h.width]
  head : w.head.Filled [h.width, h.vocab]
  layers : ∀ l ∈ w.layers, l.Filled h
  length_layers : w.layers.length = h.layers

/-- Whatever the moves give out of a filled store has the property, and the store stays filled. -/
def Takes {α : Type} (x : StateT WeightStore (Except Error) α) (P : α → Prop) : Prop :=
  ∀ s a s', x.run s = .ok (a, s') → s.Filled → P a ∧ s'.Filled

namespace Takes

variable {α β : Type} {x : StateT WeightStore (Except Error) α} {P Q : α → Prop} {R : β → Prop}

theorem pure {a : α} (h : P a) : Takes (Pure.pure a) P := by
  intro s a' s' hrun hs
  cases hrun
  exact ⟨h, hs⟩

theorem bind {f : α → StateT WeightStore (Except Error) β} (hx : Takes x P) (hf : ∀ a, P a → Takes (f a) R) :
    Takes (x >>= f) R := by
  intro s b s' hrun hs
  obtain ⟨⟨a, s₁⟩, ha, hb⟩ := bind_eq_ok_iff.1 hrun
  obtain ⟨hP, hs₁⟩ := hx s a s₁ ha hs
  exact hf a hP s₁ b s' hb hs₁

end Takes

theorem takes_take (name : String) (dims : List Nat) : Takes (Weights.take name dims) (Tensor.Filled · dims) := by
  intro s t s' hrun hs
  simp only [Weights.take, StateT.run, ↓throw_bind, bind_eq_ok_iff, guard_eq_ok_iff] at hrun
  obtain ⟨⟨t', s₁⟩, htake, hdims, h⟩ := hrun
  cases h
  rw [WeightStore.take] at htake
  split at htake
  · rename_i hget
    cases htake
    refine ⟨⟨Decidable.not_not.1 hdims, hs name _ hget⟩, fun name' t' ht' => ?_⟩
    rw [WeightStore.get?, Dictionary.get?_erase] at ht'
    split at ht'
    · cases ht'
    · exact hs name' t' ht'
  · cases htake

theorem takes_layer (h : Hyperparameters) (i : Nat) : Takes (Weights.takeLayer h i) (Layer.Filled h) :=
  (takes_take _ _).bind fun _ h₁ => (takes_take _ _).bind fun _ h₂ => (takes_take _ _).bind fun _ h₃ =>
  (takes_take _ _).bind fun _ h₄ => (takes_take _ _).bind fun _ h₅ => (takes_take _ _).bind fun _ h₆ =>
  (takes_take _ _).bind fun _ h₇ => (takes_take _ _).bind fun _ h₈ => (takes_take _ _).bind fun _ h₉ =>
  (takes_take _ _).bind fun _ h₁₀ => (takes_take _ _).bind fun _ h₁₁ => (takes_take _ _).bind fun _ h₁₂ =>
  .pure ⟨h₁, h₂, h₃, h₄, h₅, h₆, h₇, h₈, h₉, h₁₀, h₁₁, h₁₂⟩

theorem takes_layers (h : Hyperparameters) : ∀ n i : Nat,
    Takes (Weights.takeLayers h i n) fun ls => ls.length = n ∧ ∀ l ∈ ls, l.Filled h
  | 0, _ => .pure ⟨rfl, fun _ hl => by cases hl⟩
  | n + 1, i => (takes_layer h i).bind fun _ hlayer => (takes_layers h n (i + 1)).bind fun _ hrest =>
    .pure ⟨congrArg (· + 1) hrest.1, List.forall_mem_cons.2 ⟨hlayer, hrest.2⟩⟩

theorem takes_output (h : Hyperparameters) (hasOutput : Bool) :
    Takes (Weights.takeOutput h hasOutput) fun output => ∀ t ∈ output, t.Filled [h.width, h.vocab] := by
  rw [Weights.takeOutput]
  split
  · rw [map_eq_pure_bind]
    refine (takes_take _ _).bind fun t ht => .pure fun t' ht' => ?_
    cases ht'
    exact ht
  · exact .pure fun t ht => by cases ht

theorem takes_all (h : Hyperparameters) (hasOutput : Bool) : Takes (Weights.takeAll h hasOutput) (Weights.Filled h) := by
  refine (takes_take _ _).bind fun token h₁ => (takes_take _ _).bind fun _ h₂ => (takes_take _ _).bind fun _ h₃ =>
    (takes_take _ _).bind fun _ h₄ => (takes_layers h _ _).bind fun _ h₅ => (takes_output h _).bind fun output h₆ =>
    .pure ⟨h₁, h₂, h₃, h₄, ?_, h₅.2, h₅.1⟩
  cases output with
  | none => exact h₁
  | some t => exact h₆ t rfl

/-- Weights out of a store that is filled are filled. -/
theorem Weights.filled_of_ofStore {store : WeightStore} {h : Hyperparameters} {w : Weights} (hs : store.Filled)
    (hok : ofStore store h = .ok w) : w.Filled h := by
  simp only [ofStore, bind_eq_ok_iff] at hok
  obtain ⟨⟨w', s⟩, htake, hok⟩ := hok
  cases hok
  exact (takes_all _ _ _ _ _ htake hs).1

/-! ## Models -/

/-- **What holds of every loaded model.** -/
structure Model.Valid (m : Model) : Prop where
  sizes : m.hyperparameters.Valid
  architecture : m.hyperparameters.architecture = Decoder.architecture
  shape : m.shape = .ofHyperparameters m.hyperparameters
  weights : m.weights.Filled m.hyperparameters
  /-- There are as many tokens as texts in an array of the container. -/
  vocab_le : m.hyperparameters.vocab ≤ Container.maxArrayLength
  /-- The tokenizer is that of as many tokens. -/
  tokenizer : ∃ v, m.tokenizer = .ofVocabulary v ∧ v.size = m.hyperparameters.vocab

theorem Model.vocab_le_of_readTokenizer {metadata : Container.Metadata} {h : Hyperparameters} {t : Tokenizer}
    (hbounded : metadata.Bounded) (hok : readTokenizer metadata h = .ok t) : h.vocab ≤ Container.maxArrayLength := by
  simp only [readTokenizer, ↓throw_bind, bind_eq_ok_iff, guard_eq_ok_iff] at hok
  obtain ⟨_, -, hlength, -⟩ := hok
  rw [← Decidable.not_not.1 hlength]
  exact hbounded.length_strings_le _

theorem Model.exists_vocabulary_of_readTokenizer {metadata : Container.Metadata} {h : Hyperparameters} {t : Tokenizer}
    (hok : readTokenizer metadata h = .ok t) : ∃ v, t = .ofVocabulary v ∧ v.size = h.vocab := by
  simp only [readTokenizer, ↓throw_bind, bind_eq_ok_iff, guard_eq_ok_iff] at hok
  obtain ⟨_, -, hlength, bos, -, eos, -, hok⟩ := hok
  cases hok
  refine ⟨_, rfl, ?_⟩
  rw [← Decidable.not_not.1 hlength]
  exact List.size_toArray

/-- **A file that is accepted holds a valid model.** -/
theorem Model.valid_of_ofFile {path : String} {file : Bytes} {m : Model} (hok : Model.ofFile path file = .ok m) :
    m.Valid := by
  simp only [Model.ofFile, bind_eq_ok_iff] at hok
  obtain ⟨⟨header, h⟩, hheader, tokenizer, htokenizer, store, hstore, weights, hweights, hok⟩ := hok
  cases hok
  simp only [Model.readHeader, ↓throw_bind, bind_eq_ok_iff, guard_eq_ok_iff] at hheader
  obtain ⟨header', hparse, -, sizes, hsizes, hheader⟩ := hheader
  cases hheader
  have v := Hyperparameters.valid_of_ofMetadata hsizes
  exact ⟨⟨v.pos, v.small, v.width_mod, v.heads_mod⟩, rfl, rfl,
    Weights.filled_of_ofStore (WeightStore.filled_of_load hstore) hweights,
    Model.vocab_le_of_readTokenizer (Container.bounded_parse hparse) htokenizer,
    Model.exists_vocabulary_of_readTokenizer htokenizer⟩

end Decoder
end CausalLM
