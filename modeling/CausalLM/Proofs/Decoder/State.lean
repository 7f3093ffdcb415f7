import CausalLM.Proofs.Decoder.Pass
import CausalLM.Proofs.Snapshot.Image
/-!
# Proofs.Decoder.State — the states of an engine

Whatever is done with an engine, its evaluation stays sound (`Evaluation.Sound`): the cache counts as many positions as
there are tokens, all of them known, and there are logits exactly if there are tokens.  What of a sound evaluation
decides anything later is its tokens, the history in its cache and its logits (`Evaluation.Agrees`); the rest, stale
rows and buffers, is not read.  Each operation has one lemma here that says what it does to a sound engine.
-/
namespace CausalLM

theorem Cache.history_of_le (c : Cache) {i n : Nat} (h : i ≤ n) : c.history i =
    (c.history n).map fun p => (p.1.take (i * c.rowWidth), p.2.take (i * c.rowWidth)) := by
  have hle : i * c.rowWidth ≤ n * c.rowWidth := Nat.mul_le_mul_right _ h
  rw [history, history, rowsFrom, rowsFrom, List.map_map]
  refine List.map_congr_left fun layer _ => ?_
  simp only [keys, values, Function.comp, List.take_take, Nat.min_eq_left hle]

namespace Decoder

variable {k : Kernels} {m : Model}

theorem Model.Valid.fits (hm : m.Valid) : m.shape.Fits := by
  rw [hm.shape]
  refine ⟨?_, fun size hsize => ?_⟩
  · rw [StateShape.ofHyperparameters, hm.architecture]
    exact (by decide : Decoder.architecture.utf8ByteSize < 2 ^ 32)
  · have hsmall : ∀ n name, (name, n) ∈ m.hyperparameters.sizes → n < 2 ^ 32 := fun n name hn => hm.sizes.small _ hn
    simp only [StateShape.sizes, StateShape.ofHyperparameters, List.mem_cons, List.not_mem_nil, or_false] at hsize
    rcases hsize with rfl | rfl | rfl | rfl | rfl
    · exact hsmall _ "n_layer" (by simp [Hyperparameters.sizes])
    · exact hsmall _ "n_ctx" (by simp [Hyperparameters.sizes])
    · exact hsmall _ "n_embd" (by simp [Hyperparameters.sizes])
    · exact hm.sizes.rowWidth_small
    · exact hsmall _ "n_vocab" (by simp [Hyperparameters.sizes])

namespace Evaluation

/-! ## Evaluations -/

/-- **The invariant of an evaluation.** -/
structure Sound (m : Model) (e : Evaluation) : Prop where
  shaped : e.cache.Shaped m.hyperparameters.layers m.hyperparameters.rowWidth m.hyperparameters.context
  length_eq : e.cache.length = e.tokens.length
  tokens_le : e.tokens.length ≤ m.hyperparameters.context
  tokens_below : ∀ t ∈ e.tokens, t.isBelow m.hyperparameters.vocab = true
  logits_length : e.logits.length = m.hyperparameters.vocab
  hasLogits_eq : e.hasLogits = !e.tokens.isEmpty
  sized : e.work.Sized m.hyperparameters
  /-- The rows of a layer could be had, so a snapshot's can. -/
  allocates : Memory.fits (m.hyperparameters.context * m.hyperparameters.rowWidth) = true

/-- The logits, if they are those of the last token. -/
def seen (e : Evaluation) : Vec := if e.hasLogits then e.logits else []

/-- **Two evaluations agree** in everything that decides what comes later. -/
structure Agrees (e e' : Evaluation) : Prop where
  tokens_eq : e.tokens = e'.tokens
  history_eq : e.cache.history e.tokens.length = e'.cache.history e'.tokens.length
  seen_eq : e.seen = e'.seen

variable {e e' : Evaluation}

theorem Sound.hasLogits_iff (hs : e.Sound m) : e.hasLogits = true ↔ e.tokens ≠ [] := by
  rw [hs.hasLogits_eq]
  cases e.tokens <;> simp

theorem Sound.length_seen (hs : e.Sound m) :
    e.seen.length = if e.tokens = [] then 0 else m.hyperparameters.vocab := by
  by_cases h : e.tokens = []
  · rw [if_pos h, seen, hs.hasLogits_eq, h]
    rfl
  · rw [if_neg h, seen, if_pos (hs.hasLogits_iff.2 h), hs.logits_length]

/-- **A sound evaluation can be saved.** -/
theorem Sound.savable (hs : e.Sound m) (hm : m.Valid) : Snapshot.Savable m.shape e.tokens e.seen e.cache := by
  rw [hm.shape]
  exact ⟨hs.tokens_le, hs.tokens_below, hs.length_seen, hs.shaped, hs.length_eq⟩

theorem fits_of_buffers {size : Nat} : ∀ {layers : Nat} {p : List Vec × List Vec}, Cache.buffers size layers = .ok p →
    0 < layers → Memory.fits size = true
  | layers + 1, p, h, _ => by
    simp only [Cache.buffers, bind_eq_ok_iff] at h
    obtain ⟨z, hz, -⟩ := h
    exact Memory.fits_of_zeros hz

theorem sound_new (hm : m.Valid) (hok : Evaluation.new m.hyperparameters = .ok e) : e.Sound m := by
  simp only [Evaluation.new, bind_eq_ok_iff] at hok
  obtain ⟨cache, hcache, logits, hlogits, work, hwork, hok⟩ := hok
  cases hok
  have hlength : cache.length = 0 ∧
      Memory.fits (m.hyperparameters.rowWidth * m.hyperparameters.context) = true := by
    simp only [Cache.new, Word.wrapMul_of_le hm.sizes.layer_small, bind_eq_ok_iff] at hcache
    obtain ⟨p, hp, hcache⟩ := hcache
    cases hcache
    exact ⟨rfl, fits_of_buffers hp hm.sizes.layers_pos⟩
  refine ⟨Cache.shaped_new hm.sizes.layer_small hcache, hlength.1, Nat.zero_le _, (fun _ ht => by cases ht), ?_, rfl,
    Workspace.sized_new hwork, ?_⟩
  · rw [Memory.zeros_eq_ok hlogits, List.length_replicate]
  · rw [Nat.mul_comm]
    exact hlength.2

theorem Sound.clear (hs : e.Sound m) : e.clear.Sound m :=
  ⟨hs.shaped.clear, rfl, Nat.zero_le _, (fun _ ht => by cases ht), hs.logits_length, rfl, hs.sized, hs.allocates⟩

theorem tokens_truncate (e : Evaluation) (n : Nat) : (e.truncate n).tokens = e.tokens.take n := by
  rw [truncate]
  split
  · rfl
  · rw [List.take_of_length_le (by omega)]

theorem work_truncate (e : Evaluation) (n : Nat) : (e.truncate n).work = e.work := by
  rw [truncate]
  split <;> rfl

theorem logits_truncate (e : Evaluation) (n : Nat) : (e.truncate n).logits = e.logits := by
  rw [truncate]
  split <;> rfl

theorem history_truncate (e : Evaluation) (n i : Nat) : (e.truncate n).cache.history i = e.cache.history i := by
  rw [truncate]
  split <;> rfl

theorem Sound.shaped_truncate (hs : e.Sound m) (n : Nat) : (e.truncate n).cache.Shaped m.hyperparameters.layers
    m.hyperparameters.rowWidth m.hyperparameters.context := by
  rw [truncate]
  split
  · exact hs.shaped.commit n
  · exact hs.shaped

/-- **What evaluating tokens makes of an evaluation**: the tokens are put behind the first `start`, and history and
logits are those of a step from the history of these. -/
structure Extended (k : Kernels) (m : Model) (e : Evaluation) (start : Nat) (tokens : List Token) (e' : Evaluation) :
    Prop where
  sound : e'.Sound m
  tokens_eq : e'.tokens = e.tokens.take start ++ tokens
  history_eq : e'.cache.history e'.tokens.length =
    (stepTokens k m.hyperparameters m.weights start tokens (e.cache.history start, [])).1
  seen_eq : e'.seen = project k m.hyperparameters m.weights
    (stepTokens k m.hyperparameters m.weights start tokens (e.cache.history start, [])).2

/-- **Tokens evaluated in two goes** make of an evaluation what all of them at once make of it. -/
theorem Extended.append {start : Nat} {tokens more : List Token} {e'' : Evaluation} (h : Extended k m e start tokens e')
    (h' : Extended k m e' (start + tokens.length) more e'') (hstart : start ≤ e.tokens.length) (hmore : more ≠ []) :
    Extended k m e start (tokens ++ more) e'' := by
  have hlen : e'.tokens.length = start + tokens.length := by
    rw [h.tokens_eq, List.length_append, List.length_take, Nat.min_eq_left hstart]
  have hhistory := h.history_eq
  rw [hlen] at hhistory
  -- the second go starts from the history of the first, and does not read the hidden state that the first ends with
  have hstep : stepTokens k m.hyperparameters m.weights start (tokens ++ more) (e.cache.history start, []) =
      stepTokens k m.hyperparameters m.weights (start + tokens.length) more
        (e'.cache.history (start + tokens.length), []) := by
    rw [stepTokens_append, hhistory]
    exact stepTokens_congr hmore _ _ _
  refine ⟨h'.sound, ?_, ?_, ?_⟩
  · rw [h'.tokens_eq, ← hlen, List.take_length, h.tokens_eq, List.append_assoc]
  · rw [hstep]
    exact h'.history_eq
  · rw [hstep]
    exact h'.seen_eq

/-- **Evaluating known tokens within the context succeeds.** -/
theorem Sound.exists_extend (hs : e.Sound m) (hm : m.Valid) {start : Nat} {tokens : List Token} (hne : tokens ≠ [])
    (hstart : start ≤ e.tokens.length) (hroom : start + tokens.length ≤ m.hyperparameters.context)
    (hbelow : ∀ t ∈ tokens, t.isBelow m.hyperparameters.vocab = true) :
    ∃ e', e.extend k m start tokens = (.ok (), e') ∧ Extended k m e start tokens e' := by
  obtain ⟨p, hrun, hshaped, hsized, hlength, hstep⟩ := exists_runTokens (k := k) hm.sizes hm.weights tokens start
    (p := ⟨(e.truncate start).cache, (e.truncate start).work⟩) (hs.shaped_truncate start)
    (by rw [work_truncate]; exact hs.sized) hbelow hroom
  -- the logits are computed into a buffer that changes places with the one that holds the last ones
  obtain ⟨w', hproject, hsized', hlogits⟩ := exists_projectLogits (k := k) hm.sizes hm.weights hsized
  have hforward : (runTokens k m.hyperparameters m.weights start tokens >>= fun _ =>
      projectLogits k m.hyperparameters m.weights).run.run ⟨(e.truncate start).cache, (e.truncate start).work⟩ =
      (.ok (), ⟨p.cache, w'⟩) := (Forward.run_bind hrun).trans hproject
  have hlen : ((e.truncate start).tokens ++ tokens).length = start + tokens.length := by
    rw [tokens_truncate, List.length_append, List.length_take, Nat.min_eq_left hstart]
  rw [history_truncate, work_truncate, stepTokens_congr hne _ e.work.hidden []] at hstep
  refine ⟨{ e.truncate start with
      cache := p.cache
      work := { w' with logits := (e.truncate start).logits }
      logits := w'.logits
      hasLogits := true
      tokens := (e.truncate start).tokens ++ tokens }, ?_, ⟨?_, ?_, ?_, ?_⟩⟩
  · rw [extend]
    simp only
    rw [hforward]
  · refine ⟨hshaped, ?_, ?_, ?_, hsized'.logits, ?_, ?_, hs.allocates⟩
    · exact (hlength.trans (if_neg hne)).trans hlen.symm
    · exact Nat.le_trans (Nat.le_of_eq hlen) hroom
    · intro t ht
      rcases List.mem_append.1 ht with ht | ht
      · rw [tokens_truncate] at ht
        exact hs.tokens_below t (List.mem_of_mem_take ht)
      · exact hbelow t ht
    · cases htokens : (e.truncate start).tokens ++ tokens with
      | nil => exact absurd (List.append_eq_nil_iff.1 htokens).2 hne
      | cons t ts => rfl
    · exact ⟨hsized'.hidden, hsized'.norm, hsized'.joint, hsized'.attention, hsized'.projection,
        hsized'.feedForward, hsized'.scores, by rw [logits_truncate, hs.logits_length]⟩
  · rw [tokens_truncate]
  · rw [hstep]
    exact congrArg p.cache.history hlen
  · rw [hstep]
    exact hlogits

end Evaluation
end Decoder
end CausalLM
