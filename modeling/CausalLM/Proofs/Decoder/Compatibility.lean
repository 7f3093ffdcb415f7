import CausalLM.Proofs.Decoder.Reach
/-!
# Proofs.Decoder.Compatibility — which models take over each other's states

A snapshot starts with the shape of its model, and a model of another shape refuses it over the first size that differs
(`decode_bytes_of_ne`).  The shape has the width of a key row in place of the heads and nothing of the feed-forward
block.  So the sizes that have to agree are those of the shape (`sizes_eq_iff`), of the heads only the number of query
heads that share a key and value head; a model that agrees in them takes the state over (`restore_capture_iff`).
-/
namespace CausalLM

namespace Snapshot

variable {shape shape' : StateShape}

/-! ## Shapes -/

/-- The failure over a size that differs. -/
def mismatch (name : String) (got want : Nat) : Error :=
  .corruptState (name ++ " is " ++ toString got ++ " in snapshot, " ++ toString want ++ " in model")

/-- **A size that differs is found**, and named with both numbers. -/
theorem checkSizes_of_ne : ∀ {sizes sizes' : List (String × Nat)} (r : Bytes),
    sizes.map Prod.fst = sizes'.map Prod.fst → (∀ size ∈ sizes, size.2 < 2 ^ 32) → sizes ≠ sizes' →
    ∃ name got want, ((name, got), (name, want)) ∈ sizes.zip sizes' ∧ got ≠ want ∧
      checkSizes sizes' (writeSizes sizes ++ r) = .error (mismatch name got want)
  | [], [], _, _, _, hne => absurd rfl hne
  | [], _ :: _, _, hnames, _, _ => by cases hnames
  | _ :: _, [], _, hnames, _, _ => by cases hnames
  | (name, got) :: rest, (name', want) :: rest', r, hnames, hsmall, hne => by
    obtain ⟨rfl, hrest⟩ : name = name' ∧ rest.map Prod.fst = rest'.map Prod.fst := List.cons_eq_cons.1 hnames
    obtain ⟨hlt, hsmall'⟩ := List.forall_mem_cons.1 hsmall
    have hread : readWord 4 (writeSizes ((name, got) :: rest) ++ r) = .ok (got, writeSizes rest ++ r) := by
      refine readWord_eq_ok_iff.2 ⟨?_, hlt⟩
      rw [writeSizes, List.flatMap_cons, List.append_assoc]
      rfl
    rw [checkSizes, hread, ok_bind]
    dsimp only
    by_cases heq : got = want
    · subst heq
      obtain ⟨found, got', want', hmem, hdiffer, hfails⟩ :=
        checkSizes_of_ne r hrest hsmall' fun hsame => hne (by rw [hsame])
      rw [if_neg (fun h => h rfl)]
      exact ⟨found, got', want', List.mem_cons_of_mem _ hmem, hdiffer, hfails⟩
    · rw [if_pos heq]
      exact ⟨name, got, want, List.mem_cons_self, heq, rfl⟩

/-- Of a head for the same architecture the sizes are left to check. -/
theorem checkHead_head (hfits : shape.Fits) (harchitecture : shape.architecture = shape'.architecture) (r : Bytes) :
    checkHead shape' (head shape ++ r) = checkSizes shape'.sizes (writeSizes shape.sizes ++ r) := by
  have hparts : head shape ++ r = magic ++ (Bytes.ofNat 4 version ++ (Bytes.ofNat 4 shape.architecture.utf8ByteSize ++
      (Utf8.ofString shape.architecture ++ (writeSizes shape.sizes ++ r)))) := by
    simp only [head, List.append_assoc]
  have hletters : readBytes 4 (head shape ++ r) = .ok (magic, _) := readBytes_eq_ok_iff.2 ⟨hparts, rfl⟩
  have hversion : ∀ s, readWord 4 (Bytes.ofNat 4 version ++ s) = .ok (version, s) :=
    fun _ => readWord_eq_ok_iff.2 ⟨rfl, by decide⟩
  have hlength : ∀ s, readWord 4 (Bytes.ofNat 4 shape.architecture.utf8ByteSize ++ s) =
      .ok (shape.architecture.utf8ByteSize, s) := fun _ => readWord_eq_ok_iff.2 ⟨rfl, hfits.architecture⟩
  have hname : ∀ s, readBytes shape.architecture.utf8ByteSize (Utf8.ofString shape.architecture ++ s) =
      .ok (Utf8.ofString shape.architecture, s) := fun _ => readBytes_eq_ok_iff.2 ⟨rfl, Utf8.length_ofString _⟩
  simp only [checkHead, hletters, hversion, hlength, hname, ok_bind, ← harchitecture, ne_eq, not_true, if_false]

/-- **The bytes of a state are refused by every other shape** of the same architecture. -/
theorem decode_bytes_of_ne (hfits : shape.Fits) (harchitecture : shape.architecture = shape'.architecture)
    (hne : shape.sizes ≠ shape'.sizes) (s : Snapshot) :
    ∃ name got want, ((name, got), (name, want)) ∈ shape.sizes.zip shape'.sizes ∧ got ≠ want ∧
      decode shape' (bytes shape s) = .error (mismatch name got want) := by
  have hparts : bytes shape s = head shape ++ ((Bytes.ofNat 8 s.rng.toNat ++ Bytes.ofNat 4 s.tokens.length ++
      writeTokens s.tokens ++ Bytes.ofNat 4 s.logits.length ++ writeSingles s.logits ++
      writeRows (s.keys.zip s.values)) ++ Digest.sha256 (payload shape s)) := by
    simp only [bytes, payload, List.append_assoc]
  rw [hparts]
  have hnames : shape.sizes.map Prod.fst = shape'.sizes.map Prod.fst := rfl
  obtain ⟨name, got, want, hmem, hdiffer, hfails⟩ := checkSizes_of_ne _ hnames hfits.sizes hne
  refine ⟨name, got, want, hmem, hdiffer, ?_⟩
  rw [decode, checkHead_head hfits harchitecture, hfails]
  rfl

end Snapshot

/-! ## Sizes that have to agree -/

/-- **The sizes in which two models have to agree** for the states of one to be states of the other.  The query heads
count as far as they share a key and value head. -/
structure Hyperparameters.Compatible (h h' : Hyperparameters) : Prop where
  layers_eq : h.layers = h'.layers
  context_eq : h.context = h'.context
  width_eq : h.width = h'.width
  vocab_eq : h.vocab = h'.vocab
  share_eq : h.heads / h.headsKV = h'.heads / h'.headsKV

namespace Hyperparameters

variable {h h' : Hyperparameters}

/-- A row is repeated for every query head that shares it, and this makes up the width. -/
theorem Valid.rowWidth_mul (v : h.Valid) : h.rowWidth * (h.heads / h.headsKV) = h.width := by
  calc h.rowWidth * (h.heads / h.headsKV)
    _ = h.headsKV * (h.heads / h.headsKV) * h.headWidth := by rw [rowWidth, Nat.mul_right_comm]
    _ = h.heads * h.headWidth := by rw [Nat.mul_div_cancel' (Nat.dvd_of_mod_eq_zero v.heads_mod)]
    _ = h.width := v.heads_mul

theorem Valid.rowWidth_eq_iff (v : h.Valid) (v' : h'.Valid) (hwidth : h.width = h'.width) :
    h.rowWidth = h'.rowWidth ↔ h.heads / h.headsKV = h'.heads / h'.headsKV := by
  have hmul := v.rowWidth_mul
  have hmul' := v'.rowWidth_mul
  have hpos := v.width_pos
  constructor
  · intro hrow
    refine Nat.eq_of_mul_eq_mul_left (Nat.pos_of_mul_pos_right (hmul ▸ hpos)) ?_
    rw [hmul, hrow, hmul', hwidth]
  · intro hshare
    refine Nat.eq_of_mul_eq_mul_right (Nat.pos_of_mul_pos_left (hmul ▸ hpos)) ?_
    rw [hmul, hshare, hmul', hwidth]

theorem sizes_eq_iff (v : h.Valid) (v' : h'.Valid) :
    (StateShape.ofHyperparameters h).sizes = (StateShape.ofHyperparameters h').sizes ↔ h.Compatible h' := by
  simp only [StateShape.sizes, StateShape.ofHyperparameters, List.cons.injEq, Prod.mk.injEq, true_and, and_true]
  constructor
  · rintro ⟨hlayers, hcontext, hwidth, hrow, hvocab⟩
    exact ⟨hlayers, hcontext, hwidth, hvocab, (v.rowWidth_eq_iff v' hwidth).1 hrow⟩
  · rintro ⟨hlayers, hcontext, hwidth, hvocab, hshare⟩
    exact ⟨hlayers, hcontext, hwidth, (v.rowWidth_eq_iff v' hwidth).2 hshare, hvocab⟩

end Hyperparameters

namespace Decoder.Engine

variable {k : Kernels} {a b : Engine} {s t : Session}

/-! ## Engines -/

/-- A state is refused by a model of another shape, and nothing changes. -/
theorem restore_of_incompatible (hb : b.session = some t) (hs : s.Sound) (ht : t.Sound)
    (hne : ¬s.model.hyperparameters.Compatible t.model.hyperparameters) :
    ∃ name got want, ((name, got), (name, want)) ∈ s.model.shape.sizes.zip t.model.shape.sizes ∧ got ≠ want ∧
      b.restore (Snapshot.bytes s.model.shape (a.stateOf s)) = (.error (Snapshot.mismatch name got want), b) := by
  have harchitecture : s.model.shape.architecture = t.model.shape.architecture := by
    rw [hs.model.shape, ht.model.shape]
    exact hs.model.architecture.trans ht.model.architecture.symm
  have hsizes : s.model.shape.sizes ≠ t.model.shape.sizes := by
    rw [hs.model.shape, ht.model.shape]
    exact fun heq => hne ((Hyperparameters.sizes_eq_iff hs.model.sizes ht.model.sizes).1 heq)
  obtain ⟨name, got, want, hmem, hdiffer, hdecode⟩ :=
    Snapshot.decode_bytes_of_ne hs.model.fits harchitecture hsizes (a.stateOf s)
  refine ⟨name, got, want, hmem, hdiffer, ?_⟩
  generalize Snapshot.bytes s.model.shape (a.stateOf s) = buffer at hdecode ⊢
  have hrestore := restore_eq hb ht buffer
  rwa [hdecode] at hrestore

/-- A state is taken over by a model of the same shape, and is its state then. -/
theorem exists_restore_of_compatible (hb : b.session = some t) (hs : s.Sound) (ht : t.Sound)
    (h : s.model.hyperparameters.Compatible t.model.hyperparameters) :
    ∃ b' v, b.restore (Snapshot.bytes s.model.shape (a.stateOf s)) =
        (.ok (Snapshot.bytes s.model.shape (a.stateOf s)).length, b') ∧
      b'.session = some { t with evaluation := v } ∧ v.tokens = s.evaluation.tokens ∧
      Backend.capture b' = .ok (Snapshot.bytes s.model.shape (a.stateOf s)) := by
  have hshape : t.model.shape = s.model.shape := by
    have harchitecture := hs.model.architecture.trans ht.model.architecture.symm
    have hrow := (hs.model.sizes.rowWidth_eq_iff ht.model.sizes h.width_eq).2 h.share_eq
    rw [hs.model.shape, ht.model.shape, StateShape.ofHyperparameters, StateShape.ofHyperparameters, harchitecture,
      h.layers_eq, h.context_eq, h.width_eq, hrow, h.vocab_eq]
  have hdecode := decode_stateOf hs a []
  rw [List.append_nil, ← hshape] at hdecode
  rw [← hshape]
  generalize hbuffer : Snapshot.bytes t.model.shape (a.stateOf s) = buffer at hdecode ⊢
  have hrestore := restore_eq hb ht buffer
  rw [hdecode] at hrestore
  obtain ⟨v, hv, hrestore⟩ := hrestore
  have hhistory : v.cache.history v.tokens.length = s.evaluation.cache.history s.evaluation.tokens.length :=
    hv.history_eq.trans (Snapshot.zip_history _ _)
  obtain ⟨b', hb'⟩ : ∃ b' : Engine, b' = ⟨b.loaded, some v, ⟨(a.stateOf s).rng⟩, b.threads⟩ := ⟨_, rfl⟩
  rw [← hb'] at hrestore
  have hsession : b'.session = some { t with evaluation := v } := by
    rw [hb']
    exact session_of_loaded_eq hb rfl rfl
  refine ⟨b', v, hrestore, hsession, hv.tokens_eq, (capture_eq hsession ⟨ht.model, hv.sound⟩).trans ?_⟩
  have hstate : b'.stateOf { t with evaluation := v } = a.stateOf s := by
    rw [stateOf, Snapshot.ofCache, hhistory, hv.tokens_eq, hv.seen_eq, hb']
    rfl
  rw [hstate, hbuffer]

/-- **A model refuses the states of those it does not agree with**, over a size that it names, and takes over those of
all others as they are. -/
theorem restore_capture_iff (hreachA : Reachable k a) (hreachB : Reachable k b) (ha : a.session = some s)
    (hb : b.session = some t) : ∃ snapshot, Backend.capture a = .ok snapshot ∧
      (¬s.model.hyperparameters.Compatible t.model.hyperparameters → ∃ name got want,
        ((name, got), (name, want)) ∈ s.model.shape.sizes.zip t.model.shape.sizes ∧ got ≠ want ∧
        Backend.restore b snapshot = (.error (Snapshot.mismatch name got want), b)) ∧
      (s.model.hyperparameters.Compatible t.model.hyperparameters → ∃ b' v,
        Backend.restore b snapshot = (.ok snapshot.length, b') ∧ b'.session = some { t with evaluation := v } ∧
        b'.evaluated = a.evaluated ∧ Backend.capture b' = .ok snapshot) := by
  have hs := sound_of_reachable hreachA s ha
  have ht := sound_of_reachable hreachB t hb
  refine ⟨_, capture_eq ha hs, restore_of_incompatible hb hs ht, fun h => ?_⟩
  obtain ⟨b', v, hrestore, hsession, htokens, hcapture⟩ := exists_restore_of_compatible (a := a) hb hs ht h
  exact ⟨b', v, hrestore, hsession, by rw [evaluated_eq hsession, evaluated_eq ha, htokens], hcapture⟩

end Decoder.Engine

/-! ## Models beside the smallest one -/

namespace Decoder

open Container

/-- The smallest model with another context and another feed-forward block. -/
def variant (context feedForward : Nat) : Draft where
  pairs := smallest.pairs ++
    [("starcoder.context_length", .word32 context), ("starcoder.feed_forward_length", .word32 feedForward)]
  tensors := [
    ones "token_embd.weight" [1, 2], ones "position_embd.weight" [1, context],
    ones "output_norm.weight" [1], ones "output_norm.bias" [1],
    ones "blk.0.attn_norm.weight" [1], ones "blk.0.attn_norm.bias" [1],
    ones "blk.0.attn_qkv.weight" [1, 3], ones "blk.0.attn_qkv.bias" [3],
    ones "blk.0.attn_output.weight" [1, 1], ones "blk.0.attn_output.bias" [1],
    ones "blk.0.ffn_norm.weight" [1], ones "blk.0.ffn_norm.bias" [1],
    ones "blk.0.ffn_up.weight" [1, feedForward], ones "blk.0.ffn_up.bias" [feedForward],
    ones "blk.0.ffn_down.weight" [feedForward, 1], ones "blk.0.ffn_down.bias" [1]]

/-- A longer context, a thinner feed-forward block, and room for more than a prompt. -/
def variants : List (Nat × Nat) := [(3, 4), (2, 1), (8, 4)]

theorem readable_variant : ∀ p ∈ variants, (variant p.1 p.2).Readable := by decide +kernel

theorem ofFile_variant : ∀ p ∈ variants, (Model.ofFile "variant" (variant p.1 p.2).bytes).toOption.map
    Model.hyperparameters = some { smallestSizes with context := p.1, feedForward := p.2 } := by
  intro p hp
  rw [Model.ofFile, Model.readHeader, parse_bytes (readable_variant p hp)]
  revert p
  decide +kernel

/-- An engine with a variant. -/
theorem exists_variant {context feedForward : Nat} (hmem : (context, feedForward) ∈ variants) :
    ∃ (b : Engine) (t : Session), Engine.Reachable .machine b ∧ b.session = some t ∧
      Model.ofFile "variant" (variant context feedForward).bytes = .ok t.model ∧
      t.model.hyperparameters = { smallestSizes with context, feedForward } := by
  obtain ⟨v, hv⟩ : ∃ v, Evaluation.new { smallestSizes with context, feedForward } = .ok v := by
    simp only [variants, List.mem_cons, List.not_mem_nil, or_false, Prod.mk.injEq] at hmem
    rcases hmem with ⟨rfl, rfl⟩ | ⟨rfl, rfl⟩ | ⟨rfl, rfl⟩ <;> exact ⟨_, rfl⟩
  obtain ⟨m, hm, hsizes, hload⟩ := exists_load (ofFile_variant _ hmem) hv
  exact ⟨_, ⟨m, 0, v⟩, .load (.new 1 1) (fun _ => some (variant context feedForward).bytes) "variant" 0,
    (by rw [hload]; rfl), hm, hsizes⟩

/-- An engine that has evaluated a token with the smallest model. -/
theorem exists_evaluated_smallest : ∃ (a : Engine) (s : Session), Engine.Reachable .machine a ∧ a.session = some s ∧
    s.model.hyperparameters = smallestSizes ∧ a.evaluated = [.ofIndex 1] := by
  obtain ⟨m, v, hsizes, htokens, hload⟩ := load_smallest
  obtain ⟨v', hsession, htokens'⟩ := evaluate_smallest .machine hsizes htokens (hload 1).2
  exact ⟨_, _, .evaluate (reachable_smallest .machine 1) (Context.new 2) [.ofIndex 1], hsession, hsizes,
    (Engine.evaluated_eq hsession).trans htokens'⟩

namespace Engine

/-- The state of the smallest model after a token, and an engine with a longer context. -/
theorem restore_capture_iff_long : ∃ (a b : Engine) (snapshot : Bytes),
    a.evaluated = [.ofIndex 1] ∧ b.isLoaded = true ∧ Backend.capture a = .ok snapshot ∧
    Backend.restore b snapshot = (.error (.corruptState "n_ctx is 2 in snapshot, 3 in model"), b) := by
  obtain ⟨a, s, hreachA, ha, hsizesA, hevaluated⟩ := exists_evaluated_smallest
  obtain ⟨b, t, hreachB, hb, -, hsizesB⟩ := exists_variant (show (3, 4) ∈ variants by decide)
  obtain ⟨snapshot, hcapture, hrefused, -⟩ := restore_capture_iff hreachA hreachB ha hb
  have hne : ¬s.model.hyperparameters.Compatible t.model.hyperparameters := by
    rw [hsizesA, hsizesB]
    exact fun h => absurd h.context_eq (by decide)
  obtain ⟨name, got, want, hmem, hdiffer, hrestore⟩ := hrefused hne
  refine ⟨a, b, snapshot, hevaluated, Engine.isLoaded_of_session hb, hcapture, ?_⟩
  have hshapeA := (sound_of_reachable hreachA s ha).model.shape
  have hshapeB := (sound_of_reachable hreachB t hb).model.shape
  rw [hsizesA] at hshapeA
  rw [hsizesB] at hshapeB
  -- of all sizes only the context differs
  have honly : ∀ p ∈ s.model.shape.sizes.zip t.model.shape.sizes, p.1.2 ≠ p.2.2 → p = (("n_ctx", 2), ("n_ctx", 3)) := by
    rw [hshapeA, hshapeB]
    decide
  have hn := honly _ hmem hdiffer
  cases hn
  exact hrestore

/-- **Not every model with other sizes refuses**: one whose feed-forward block is thinner takes the state over. -/
theorem restore_of_thin : ∃ (a b b' : Engine) (s t : Session) (snapshot : Bytes) (used : Nat),
    Reachable .machine a ∧ Reachable .machine b ∧ a.session = some s ∧ b.session = some t ∧
    s.model.hyperparameters.feedForward = 4 ∧ t.model.hyperparameters.feedForward = 1 ∧
    Backend.capture a = .ok snapshot ∧ Backend.restore b snapshot = (.ok used, b') ∧ b'.evaluated = [.ofIndex 1] := by
  obtain ⟨a, s, hreachA, ha, hsizesA, hevaluated⟩ := exists_evaluated_smallest
  obtain ⟨b, t, hreachB, hb, -, hsizesB⟩ := exists_variant (show (2, 1) ∈ variants by decide)
  have hs := sound_of_reachable hreachA s ha
  have hcompatible : s.model.hyperparameters.Compatible t.model.hyperparameters := by
    rw [hsizesA, hsizesB]
    exact ⟨rfl, rfl, rfl, rfl, rfl⟩
  obtain ⟨b', w, hrestore, htaken, htokens, -⟩ :=
    exists_restore_of_compatible hb hs (sound_of_reachable hreachB t hb) hcompatible
  refine ⟨a, b, b', s, t, _, _, hreachA, hreachB, ha, hb, ?_, ?_, capture_eq ha hs, hrestore, ?_⟩
  · exact congrArg Hyperparameters.feedForward hsizesA
  · exact congrArg Hyperparameters.feedForward hsizesB
  · rw [evaluated_eq htaken, htokens, ← evaluated_eq ha]
    exact hevaluated

end Engine
end Decoder
end CausalLM
