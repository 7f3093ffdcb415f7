import CausalLM.Proofs.Decoder.Reach
/-!
# Proofs.Decoder.Restoration — restoring is atomic

A buffer is taken over as a whole or not at all, whatever its bytes are, also where its digest is right.  All checks are
made by reading, which asks for nothing that is out of range, and what passes them fits the engine (`Accommodates`).  So
storing the rows layer by layer cannot fail half way, and `restore_atomic` has two cases only.
-/
namespace CausalLM

theorem StateShape.encodedBytes_le (shape : StateShape) {n n' m m' : Nat} (hn : n ≤ n') (hm : m ≤ m') :
    shape.encodedBytes n m ≤ shape.encodedBytes n' m' := by
  have hrows : shape.layers * 2 * n * shape.rowWidth ≤ shape.layers * 2 * n' * shape.rowWidth :=
    Nat.mul_le_mul_right _ (Nat.mul_le_mul_left _ hn)
  unfold encodedBytes
  omega

namespace Decoder

variable {k : Kernels}

/-- **There is room for a snapshot in an evaluation**: what it has of each kind is as long as the buffer it goes to, or
shorter where that is allowed. -/
structure Evaluation.Accommodates (v : Evaluation) (m : Model) (snapshot : Snapshot) : Prop where
  tokens_le : snapshot.tokens.length ≤ m.hyperparameters.context
  tokens_below : ∀ t ∈ snapshot.tokens, t.isBelow m.hyperparameters.vocab = true
  logits_length : snapshot.logits = [] ∨ snapshot.logits.length = v.logits.length
  keys_length : snapshot.keys.length = v.cache.keyBuffers.length
  values_length : snapshot.values.length = v.cache.valueBuffers.length
  /-- The rows of every layer are whole and fit its buffers. -/
  rows_le : ∀ layer < m.hyperparameters.layers,
    (snapshot.keys.getD layer []).length = snapshot.tokens.length * m.hyperparameters.rowWidth ∧
    (snapshot.values.getD layer []).length = snapshot.tokens.length * m.hyperparameters.rowWidth ∧
    snapshot.tokens.length * m.hyperparameters.rowWidth ≤ (v.cache.keyBuffers.getD layer []).length ∧
    snapshot.tokens.length * m.hyperparameters.rowWidth ≤ (v.cache.valueBuffers.getD layer []).length

/-- **The evaluation is the one the snapshot describes**: its tokens, as many positions in the cache with these rows, and
its logits, if it has any. -/
structure Evaluation.Holds (v : Evaluation) (snapshot : Snapshot) : Prop where
  tokens_eq : v.tokens = snapshot.tokens
  length_eq : v.cache.length = snapshot.tokens.length
  history_eq : v.cache.history snapshot.tokens.length = snapshot.keys.zip snapshot.values
  hasLogits_eq : v.hasLogits = !snapshot.logits.isEmpty
  logits_eq : v.hasLogits = true → v.logits = snapshot.logits

/-- **What was read fits every sound evaluation** with the model. -/
theorem Evaluation.Sound.accommodates {v : Evaluation} {m : Model} {snapshot : Snapshot} (hs : v.Sound m)
    (hm : m.Valid) (h : Snapshot.Valid m.shape snapshot) : v.Accommodates m snapshot := by
  have hkeys := hs.shaped.keys_uniform
  have hvalues := hs.shaped.values_uniform
  have hle := h.tokens_le
  have hbelow := h.tokens_below
  have hlogits := h.logits_length
  have hklength := h.keys_length
  have hvlength := h.values_length
  have hrows := h.rows_length
  rw [hm.shape] at hle hbelow hlogits hklength hvlength hrows
  refine ⟨hle, hbelow, ?_, hklength.trans hkeys.1.symm, hvlength.trans hvalues.1.symm, fun layer hlayer => ?_⟩
  · by_cases hnil : snapshot.tokens = []
    · rw [if_pos hnil] at hlogits
      exact .inl (List.length_eq_zero_iff.1 hlogits)
    · rw [if_neg hnil] at hlogits
      exact .inr (hlogits.trans hs.logits_length.symm)
  · have hk : layer < snapshot.keys.length := by rw [hklength]; exact hlayer
    have hv : layer < snapshot.values.length := by rw [hvlength]; exact hlayer
    have hzip : layer < (snapshot.keys.zip snapshot.values).length := by
      rw [List.length_zip]
      exact Nat.lt_min.2 ⟨hk, hv⟩
    have hrow := hrows _ (List.getElem_mem hzip)
    rw [List.getElem_zip] at hrow
    have hsize : snapshot.tokens.length * m.hyperparameters.rowWidth ≤
        m.hyperparameters.rowWidth * m.hyperparameters.context := Cache.mul_le_size hle
    rw [List.getD_eq_getElem?_getD, List.getD_eq_getElem?_getD, List.getElem?_eq_getElem hk,
      List.getElem?_eq_getElem hv, hkeys.length_getD hlayer, hvalues.length_getD hlayer]
    exact ⟨hrow.1, hrow.2, hsize, hsize⟩

namespace Engine

variable {e : Engine} {s : Session}

theorem exists_restored (hsession : e.session = some s) (hs : s.Sound) {buffer : Bytes} {snapshot : Snapshot}
    {used : Nat} (hdecode : Snapshot.decode s.model.shape buffer = .ok (snapshot, used)) :
    ∃ rows v, Evaluation.loadRows 0 (snapshot.keys.zip snapshot.values) s.evaluation.cache = (.ok (), rows) ∧
      e.restore buffer = (.ok used, { e with evaluation := some v, rng := ⟨snapshot.rng⟩ }) ∧
      v.Holds snapshot := by
  obtain ⟨rows, hload, hsavable, hhistory, hrestore⟩ := exists_rows hsession hs hdecode
  exact ⟨rows, s.evaluation.takeOver snapshot rows, hload, hrestore, rfl, hsavable.length_eq, hhistory, rfl,
    fun hhas => if_pos hhas⟩

/-- **Restoring is atomic for every buffer.**  Either reading refuses the buffer as a corrupt state, and the engine stays
as it was; or the buffer starts with the bytes of a state, there is room for it, storing its rows succeeds from the first
layer to the last, and the engine holds that state and its generator.  No size that is computed from counts within the
model's limits leaves a word of 64 bits, if that of a full state does not, nor is it shorter than the digest cut off it. -/
theorem restore_atomic (h : Reachable k e) (hsession : e.session = some s) (buffer : Bytes) :
    ((∃ why, Snapshot.decode s.model.shape buffer = .error (.corruptState why) ∧
        e.restore buffer = (.error (.corruptState why), e)) ∨
      ∃ snapshot used rows v, Snapshot.decode s.model.shape buffer = .ok (snapshot, used) ∧
        Snapshot.bytes s.model.shape snapshot <+: buffer ∧ used = (Snapshot.bytes s.model.shape snapshot).length ∧
        used ≤ buffer.length ∧ s.evaluation.Accommodates s.model snapshot ∧
        Evaluation.loadRows 0 (snapshot.keys.zip snapshot.values) s.evaluation.cache = (.ok (), rows) ∧
        e.restore buffer =
          (.ok used, { e with evaluation := some v, rng := ⟨snapshot.rng⟩ }) ∧
        v.Holds snapshot) ∧
    (s.model.shape.encodedBytes s.model.hyperparameters.context s.model.hyperparameters.vocab < 2 ^ 64 →
      ∀ n ≤ s.model.hyperparameters.context, ∀ m ≤ s.model.hyperparameters.vocab,
        StateShape.digestBytes ≤ s.model.shape.encodedBytes n m ∧ s.model.shape.encodedBytes n m < 2 ^ 64) := by
  have hs := sound_of_reachable h s hsession
  refine ⟨?_, fun hsize n hn m hm => ⟨Nat.le_add_left _ _,
    Nat.lt_of_le_of_lt (s.model.shape.encodedBytes_le hn hm) hsize⟩⟩
  have hallocates : s.model.shape.Allocates := fun _ => by
    rw [hs.model.shape]
    exact hs.evaluation.allocates
  cases hdecode : Snapshot.decode s.model.shape buffer with
  | error err =>
    obtain ⟨why, rfl⟩ := Snapshot.corrupts_decode hallocates buffer err hdecode
    have heq := restore_eq hsession hs buffer
    rw [hdecode] at heq
    exact .inl ⟨why, rfl, heq⟩
  | ok p =>
    obtain ⟨snapshot, used⟩ := p
    obtain ⟨-, hvalid, hused, rest, hrest⟩ := Snapshot.of_decode hdecode
    obtain ⟨rows, v, hload, hrestore, hholds⟩ := exists_restored hsession hs hdecode
    have hbegins : Snapshot.bytes s.model.shape snapshot <+: buffer := ⟨rest, hrest.symm⟩
    exact .inr ⟨snapshot, used, rows, v, rfl, hbegins, hused, hused ▸ hbegins.length_le,
      hs.evaluation.accommodates hs.model hvalid, hload, hrestore, hholds⟩

/-- What an engine that evaluated a token gives is taken over by another one; of nothing, nothing is. -/
theorem restore_atomic_smallest : ∃ buffer used e',
    Backend.capture ((Engine.smallest 1).evaluate .machine (Context.new 2) [.ofIndex 1]).2.1 = .ok buffer ∧
    (Engine.smallest 2).restore buffer = (.ok used, e') ∧ e'.evaluated = [.ofIndex 1] ∧
    ∃ why, (Engine.smallest 2).restore [] = (.error (.corruptState why), Engine.smallest 2) := by
  obtain ⟨m, v, hsizes, htokens, hload⟩ := load_smallest
  obtain ⟨v', hsession, htokens'⟩ := evaluate_smallest .machine hsizes htokens (hload 1).2
  have hreach : Reachable .machine ((Engine.smallest 1).evaluate .machine (Context.new 2) [.ofIndex 1]).2.1 :=
    .evaluate (reachable_smallest .machine 1) _ _
  generalize ((Engine.smallest 1).evaluate .machine (Context.new 2) [.ofIndex 1]).2.1 = a at hsession hreach ⊢
  have hs := sound_of_reachable hreach _ hsession
  have hallocates : m.shape.Allocates := fun _ => by
    rw [hs.model.shape]
    exact hs.evaluation.allocates
  have hdecode := Snapshot.decode_bytes hs.model.fits hallocates ((hs.evaluation.savable hs.model).valid a.rng.state) []
  rw [List.append_nil] at hdecode
  have hatomic := restore_atomic (reachable_smallest .machine 2) (hload 2).2
  obtain ⟨why, hrefused, -⟩ | ⟨snapshot, used, -, w, hread, -, -, -, -, -, hrestore, hholds⟩ := (hatomic _).1
  · rw [hdecode] at hrefused
    cases hrefused
  · rw [hdecode] at hread
    cases hread
    refine ⟨_, _, _, capture_eq hsession hs, hrestore, hholds.tokens_eq.trans htokens', ?_⟩
    obtain ⟨why, -, hfail⟩ | ⟨snapshot, used, -, -, hread, -, hused, hle, -⟩ := (hatomic []).1
    · exact ⟨why, hfail⟩
    · -- no state is written in no bytes at all
      rw [hused, Snapshot.bytes, List.length_append, Snapshot.length_digest] at hle
      exact absurd (Nat.le_trans (Nat.le_add_left _ _) hle) (by decide)

end Engine
end Decoder
end CausalLM
