import CausalLM.Proofs.Decoder.Accounting
import CausalLM.Proofs.Decoder.Assembly
import CausalLM.Proofs.Decoder.Careful
/-!
# Proofs.Decoder.Indexing — sizes that were checked are safe to index with

The checks on the sizes of a model look at one size at a time and at two remainders.  All that a pass relies on follows
from them: the heads tile the width, a group of heads stays within its row, and no product of sizes outgrows a word
(`Hyperparameters.Indexable`).  With weights of these shapes a token in the vocabulary at a position in the context is
evaluated without a slice out of range, and nothing that was in the buffers before is read (`indexable_of_validate`).
-/
namespace CausalLM

/-- **What a pass takes for granted of the sizes.** -/
structure Hyperparameters.Indexable (h : Hyperparameters) : Prop where
  heads_mul : h.heads * h.headWidth = h.width
  rowWidth_le : h.rowWidth ≤ h.width
  group_pos : 0 < h.heads / h.headsKV
  /-- The key and value head of every query head ends within a row. -/
  head_le : ∀ i < h.heads, (i / (h.heads / h.headsKV) + 1) * h.headWidth ≤ h.rowWidth
  cache_le : h.context * h.rowWidth ≤ Word.max64
  joint_le : h.width + 2 * h.rowWidth ≤ Word.max64
  bytes_le : 4 * (5 * h.width + 2 * h.rowWidth + h.feedForward + h.context + h.vocab) ≤ Word.max64

namespace Hyperparameters

variable {h : Hyperparameters}

theorem Valid.indexable (v : h.Valid) : h.Indexable := by
  have hmax : Word.max64 = 2 ^ 64 - 1 := rfl
  have hwidth := v.small ("n_embd", h.width) (by simp [sizes])
  have hcontext := v.small ("n_ctx", h.context) (by simp [sizes])
  have hfeed := v.small ("n_ff", h.feedForward) (by simp [sizes])
  have hvocab := v.small ("n_vocab", h.vocab) (by simp [sizes])
  have hrow := v.rowWidth_small
  dsimp only at hwidth hcontext hfeed hvocab
  refine ⟨v.heads_mul, v.rowWidth_le, v.group_pos, fun i hi => ?_, Nat.mul_comm h.rowWidth _ ▸ v.layer_small, by omega,
    by omega⟩
  rw [Nat.add_mul, Nat.one_mul]
  exact Decoder.Uncached.headOffset_add_le v hi

end Hyperparameters

namespace Decoder

theorem Workspace.bytes_eq {h : Hyperparameters} (v : h.Valid) :
    bytes h = 4 * (5 * h.width + 2 * h.rowWidth + h.feedForward + h.context + h.vocab) := by
  have hbytes := v.indexable.bytes_le
  have hsum : [5 * h.width, 2 * h.rowWidth, h.feedForward, h.context, h.vocab].sum =
      5 * h.width + 2 * h.rowWidth + h.feedForward + h.context + h.vocab := by
    simp only [List.sum_cons, List.sum_nil]
    omega
  rw [bytes, Word.satSum_eq, hsum, Nat.min_eq_left (by omega), Memory.singleBytes, Word.satMul_of_le (by omega),
    Nat.mul_comm]

/-- A desk with nothing on it that may be read but the cache. -/
def Desk.blank (h : Hyperparameters) (c : Cache) : Desk where
  cache := c
  hidden := .replicate h.width none
  norm := .replicate h.width none
  joint := .replicate (Weights.jointWidth h) none
  attention := .replicate h.width none
  projection := .replicate h.width none
  feedForward := .replicate h.feedForward none
  scores := .replicate h.context none
  logits := .replicate h.vocab none

section
variable {h : Hyperparameters} {c : Cache}

theorem Desk.fits_blank (hc : c.Shaped h.layers h.rowWidth h.context) : (blank h c).Fits h :=
  ⟨hc, List.length_replicate, List.length_replicate, List.length_replicate, List.length_replicate,
    List.length_replicate, List.length_replicate, List.length_replicate, List.length_replicate⟩

/-- All buffers of the right sizes agree with the blank desk. -/
theorem Desk.agrees_blank {b : Workspace} (hb : b.Sized h) : (blank h c).Agrees ⟨c, b⟩ :=
  ⟨rfl, Cells.agrees_replicate hb.hidden, Cells.agrees_replicate hb.norm, Cells.agrees_replicate hb.joint,
    Cells.agrees_replicate hb.attention, Cells.agrees_replicate hb.projection, Cells.agrees_replicate hb.feedForward,
    Cells.agrees_replicate hb.scores, Cells.agrees_replicate hb.logits⟩

/-- **Sizes that were checked are safe to index with.**  They are as a pass takes them for granted, and the buffers of a
pass come to the bytes that are accounted for.  The weights come out of a store of whole tensors, as every store is that
was loaded (`WeightStore.filled_of_load`).  A token of the vocabulary at a position of the context then has its pass and
its logits: the careful pass finds every slice in range, starting from buffers of which nothing may be read, and it
writes all of them before it reads them, of the scores those up to the position.  From any buffers of the right sizes
the running pass succeeds and leaves the same. -/
theorem indexable_of_validate (hok : h.validate = .ok ()) :
    h.Indexable ∧
    Workspace.bytes h = 4 * (5 * h.width + 2 * h.rowWidth + h.feedForward + h.context + h.vocab) ∧
    (∀ b, Workspace.new h = .ok b → b.Sized h ∧ Workspace.bytes h = 4 * b.floats) ∧
    ∀ (k : Kernels) (store : WeightStore) (w : Weights) (t : Token) (position : Nat) (c : Cache),
      store.Filled → Weights.ofStore store h = .ok w → t.isBelow h.vocab = true → position < h.context →
      c.Shaped h.layers h.rowWidth h.context →
      ∃ d d', (Careful.runToken k h w t position).run (.blank h c) = some ((), d) ∧ d.Settled position ∧
        (Careful.projectLogits k h w).run d = some ((), d') ∧ d'.logits.Written ∧
        ∀ b : Workspace, b.Sized h → ∃ p p', (runToken k h w t position).run.run ⟨c, b⟩ = (.ok (), p) ∧ d.Agrees p ∧
          (projectLogits k h w).run.run p = (.ok (), p') ∧ d'.Agrees p' := by
  have v := Hyperparameters.valid_of_validate hok
  refine ⟨v.indexable, Workspace.bytes_eq v, fun b hb => ?_, fun k store w t position c hs hw ht hp hc => ?_⟩
  · have hsized := Workspace.sized_new hb
    exact ⟨hsized, by rw [Workspace.bytes_eq v, hsized.floats_eq]⟩
  · have hf := Weights.filled_of_ofStore hs hw
    obtain ⟨d, htoken, hsettled⟩ := Careful.exists_runToken (k := k) v hf (Desk.fits_blank hc) ht hp
    obtain ⟨d', hlogits, hwritten⟩ := Careful.exists_projectLogits (k := k) v hf htoken.fits hsettled.hidden
    refine ⟨d, d', htoken.run_eq, hsettled, hlogits.run_eq, hwritten, fun b hb => ?_⟩
    obtain ⟨p, hrun, hp'⟩ := htoken.agrees _ (Desk.agrees_blank hb)
    obtain ⟨p', hrun', hp''⟩ := hlogits.agrees p hp'
    exact ⟨p, p', hrun, hp', hrun', hp''⟩

/-- The store of a decoder with two layers, every tensor full of ones. -/
def supplied : WeightStore :=
  ⟨(Weights.needs Weights.twoLayers).map fun need =>
    (need.1, ⟨.replicate (need.2.foldl (· * ·) 1) .one, need.2, .f32⟩), 0, 0⟩

theorem filled_supplied : supplied.Filled := by
  intro name t ht
  obtain ⟨front, rest, htensors, -⟩ := List.lookup_eq_some_iff.1 ht
  have hmem : (name, t) ∈ supplied.tensors := htensors ▸ List.mem_append_right front List.mem_cons_self
  obtain ⟨need, -, heq⟩ := List.mem_map.1 hmem
  cases heq
  exact Array.size_replicate

theorem indexable_of_validate_twoLayers : ∃ w c b d p, Weights.ofStore supplied Weights.twoLayers = .ok w ∧
    Cache.new 2 2 3 = .ok c ∧ Workspace.new Weights.twoLayers = .ok b ∧
    (Careful.runToken .machine Weights.twoLayers w (.ofIndex 4) 2).run (.blank Weights.twoLayers c) = some ((), d) ∧
    d.Settled 2 ∧ (runToken .machine Weights.twoLayers w (.ofIndex 4) 2).run.run ⟨c, b⟩ = (.ok (), p) ∧
    d.Agrees p := by
  have hdims : ∀ need ∈ Weights.needs Weights.twoLayers, (supplied.get? need.1).map Tensor.dims = some need.2 := by
    decide +kernel
  have hget : ∀ need ∈ Weights.needs Weights.twoLayers, Weights.Fits supplied need := fun need hneed =>
    Option.map_eq_some_iff.1 (hdims need hneed)
  have houtput : supplied.get? Weights.outputName = none := by decide +kernel
  obtain ⟨ts, hfind⟩ := Weights.exists_mapM_find (Weights.complete_iff.1
    (⟨hget, fun t ht => by rw [houtput] at ht; cases ht⟩ : Weights.Complete supplied Weights.twoLayers))
  rw [← Weights.map_ofStore] at hfind
  obtain ⟨w, hw, -⟩ := map_eq_ok_iff.1 hfind
  obtain ⟨c, hc⟩ : ∃ c, Cache.new 2 2 3 = .ok c := ⟨_, rfl⟩
  obtain ⟨b, hb⟩ : ∃ b, Workspace.new Weights.twoLayers = .ok b := ⟨_, rfl⟩
  obtain ⟨-, -, -, hrun⟩ := indexable_of_validate (h := Weights.twoLayers) rfl
  obtain ⟨d, d', htoken, hsettled, -, -, hrunning⟩ := hrun .machine supplied w (.ofIndex 4) 2 c filled_supplied hw
    (by decide) (by decide) (Cache.shaped_new (by decide) hc)
  obtain ⟨p, p', hp, hagrees, -⟩ := hrunning b (Workspace.sized_new hb)
  exact ⟨w, c, b, d, p, hw, hc, hb, htoken, hsettled, hp, hagrees⟩

end

end Decoder
end CausalLM
