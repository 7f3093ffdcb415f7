import CausalLM.Proofs.Decoder.Resumption
import CausalLM.Proofs.Decoder.Uncached
/-!
# Proofs.Decoder.Refinement — cached evaluation is the uncached pass

Whatever was evaluated, rewound, forgotten or taken over from another engine over the same model, the cache holds the
rows that the uncached pass over the present tokens computes, and the logits are its logits (`cached_eq_uncached`).  So
the state of an engine does not depend on how its tokens came in.
-/
namespace CausalLM.Decoder

variable {k : Kernels} {m : Model}

theorem history_zero (c : Cache) : c.history 0 = List.replicate c.layerCount ([], []) := by
  have hnil : ∀ layer, (c.keys layer 0, c.values layer 0) = ([], []) := fun layer => by
    rw [Cache.keys, Cache.values, Nat.zero_mul]
    rfl
  rw [Cache.history, Cache.rowsFrom]
  simp only [hnil]
  rw [List.map_const', List.length_range']

theorem flat_layerRows_nil (h : Hyperparameters) : ∀ ls : List Layer,
    Uncached.flat (Uncached.layerRows k h ls []) = List.replicate ls.length ([], [])
  | [] => rfl
  | _ :: ls => congrArg (([], []) :: ·) (flat_layerRows_nil h ls)

namespace Evaluation

/-- **The evaluation is the uncached pass** over its tokens. -/
structure Genuine (k : Kernels) (m : Model) (v : Evaluation) : Prop where
  history_eq : v.cache.history v.tokens.length =
    Uncached.flat (Uncached.rows k m.hyperparameters m.weights v.tokens)
  logits_eq : v.hasLogits = true → v.logits = Uncached.logits k m.hyperparameters m.weights v.tokens

variable {v v' : Evaluation}

theorem genuine_of_tokens_eq_nil (hm : m.Valid) (hs : v.Sound m) (hnil : v.tokens = []) : v.Genuine k m := by
  refine ⟨?_, fun hhas => absurd hnil (hs.hasLogits_iff.1 hhas)⟩
  rw [hnil, Uncached.rows, Uncached.embeddings, List.mapIdx_nil, flat_layerRows_nil, hm.weights.length_layers]
  exact (history_zero v.cache).trans (by rw [hs.shaped.layerCount_eq])

/-- **Evaluating more tokens keeps to the uncached pass**, also after going back. -/
theorem Genuine.extended (hg : v.Genuine k m) (hm : m.Valid) (hs : v.Sound m) {start : Nat} {tokens : List Token}
    (hne : tokens ≠ []) (hstart : start ≤ v.tokens.length) (hv : v.Extended k m start tokens v') :
    v'.Genuine k m := by
  have hlen : (v.tokens.take start).length = start := by rw [List.length_take, Nat.min_eq_left hstart]
  -- going back to `start` leaves the rows of fewer tokens, because the pass is causal
  have hhistory : v.cache.history start =
      Uncached.flat (Uncached.rows k m.hyperparameters m.weights (v.tokens.take start)) := by
    rw [v.cache.history_of_le hstart, hg.history_eq, hs.shaped.rowWidth_eq,
      Uncached.flat_rows_take hm.sizes hm.weights hstart]
  obtain ⟨hrows, hlogits⟩ := Uncached.stepTokens_flat (k := k) hm.sizes hm.weights tokens (v.tokens.take start) []
  rw [hlen, ← hhistory] at hrows hlogits
  refine ⟨?_, fun hhas => ?_⟩
  · rw [hv.history_eq, hrows, hv.tokens_eq]
  · have hseen := hv.seen_eq
    rw [seen, if_pos hhas, hlogits hne] at hseen
    rw [hseen, hv.tokens_eq]

theorem Genuine.of_agrees (hg : v.Genuine k m) (hs : v.Sound m) (hs' : v'.Sound m) (h : v.Agrees v') :
    v'.Genuine k m := by
  refine ⟨?_, fun hhas => ?_⟩
  · rw [← h.history_eq, hg.history_eq, h.tokens_eq]
  · have hhas' : v.hasLogits = true := by
      rw [hs.hasLogits_eq, h.tokens_eq, ← hs'.hasLogits_eq, hhas]
    have hseen := h.seen_eq
    rw [seen, seen, if_pos hhas, if_pos hhas'] at hseen
    rw [← hseen, hg.logits_eq hhas', h.tokens_eq]

end Evaluation

namespace Engine

/-- **The engines that come from loading a model**: by sharing it, evaluating, sampling, forgetting, and taking over
what was captured from another of them; a snapshot from elsewhere may have been refused. -/
inductive Derived (k : Kernels) (m : Model) : Engine → Prop
  | load {e e' : Engine} {s : Session} (files : Files) (path : String) (loading : Nat)
    (hok : e.load files path loading = (.ok (), e')) (hsession : e'.session = some s) (hmodel : s.model = m) :
    Derived k m e'
  | share {e other : Engine} {seed : UInt64} (h : Derived k m other) (hok : other.share seed = .ok e) : Derived k m e
  | setThreads {e : Engine} (h : Derived k m e) (n : Nat) : Derived k m (e.setThreads n)
  | setSeed {e : Engine} (h : Derived k m e) (seed : UInt64) : Derived k m (Backend.setSeed e seed)
  | evaluate {e : Engine} (h : Derived k m e) (c : Context) (tokens : List Token) :
    Derived k m (e.evaluate k c tokens).2.1
  | sample {e : Engine} (h : Derived k m e) (c : Context) : Derived k m (e.sample c).2
  | reset {e : Engine} (h : Derived k m e) : Derived k m e.reset.2
  | restore {e other : Engine} {snapshot : Bytes} (h : Derived k m e) (hother : Derived k m other)
    (hcapture : Backend.capture other = .ok snapshot) (rest : Bytes) : Derived k m (e.restore (snapshot ++ rest)).2
  | refuse {e : Engine} {buffer : Bytes} {err : Error} (h : Derived k m e)
    (hfail : (e.restore buffer).1 = .error err) : Derived k m (e.restore buffer).2

/-- The engine holds the model, in an evaluation that is the uncached pass. -/
def Genuine (k : Kernels) (m : Model) (e : Engine) : Prop :=
  ∃ s, e.session = some s ∧ s.model = m ∧ s.Sound ∧ s.evaluation.Genuine k m

variable {e e' other : Engine}

theorem tokens_new {h : Hyperparameters} {v : Evaluation} (hok : Evaluation.new h = .ok v) : v.tokens = [] := by
  simp only [Evaluation.new, bind_eq_ok_iff] at hok
  obtain ⟨cache, -, logits, -, work, -, hok⟩ := hok
  cases hok
  rfl

theorem Genuine.evaluate (h : e.Genuine k m) (c : Context) (tokens : List Token) :
    (e.evaluate k c tokens).2.1.Genuine k m := by
  have hgenuine := h
  obtain ⟨s, hsession, rfl, hs, hg⟩ := h
  have heq := evaluate_eq (k := k) hsession hs c tokens
  cases hadmission : admission s.model.hyperparameters s.evaluation.position c.position tokens with
  | some answer =>
    rw [hadmission] at heq
    simp only at heq
    rw [heq]
    exact hgenuine
  | none =>
    obtain ⟨hne, hstart, -, -⟩ := of_admission_eq_none hadmission
    rw [hadmission] at heq
    obtain ⟨v, hv, heq⟩ := heq
    rw [heq]
    exact ⟨_, session_of_loaded_eq hsession rfl rfl, rfl, ⟨hs.model, hv.sound⟩, hg.extended hs.model hs.evaluation hne hstart hv⟩

theorem Genuine.reset (h : e.Genuine k m) : e.reset.2.Genuine k m := by
  obtain ⟨s, hsession, rfl, hs, -⟩ := h
  rw [reset_eq hsession]
  exact ⟨_, session_of_loaded_eq hsession rfl rfl, rfl, ⟨hs.model, hs.evaluation.clear⟩,
    Evaluation.genuine_of_tokens_eq_nil hs.model hs.evaluation.clear rfl⟩

theorem Genuine.of_alike (h : e.Genuine k m) (halike : e.Alike e') : e'.Genuine k m := by
  obtain ⟨s, hsession, rfl, hs, hg⟩ := h
  obtain ⟨s', t, hsession', ht, -, hst, hmodel, hagree, -⟩ := halike
  rw [hsession] at hsession'
  cases hsession'
  have hst' : t.evaluation.Sound s.model := by
    rw [hmodel]
    exact hst.evaluation
  exact ⟨t, ht, hmodel.symm, hst, hg.of_agrees hs.evaluation hst' hagree⟩

theorem Genuine.restore (h : e.Genuine k m) (hother : other.Genuine k m) {snapshot : Bytes}
    (hcapture : Backend.capture other = .ok snapshot) (rest : Bytes) :
    (e.restore (snapshot ++ rest)).2.Genuine k m := by
  have hgenuine := hother
  obtain ⟨s, hsession, hmodel, hs, -⟩ := hother
  obtain ⟨t, ht, hmodel', hst, -⟩ := h
  -- what was captured is the state of the other engine, so afterwards the two are alike
  rw [capture_eq hsession hs] at hcapture
  cases hcapture
  obtain ⟨n, e', hrestore, halike⟩ := exists_restore hsession ht hs hst (hmodel.trans hmodel'.symm) rest
  rw [hrestore]
  exact hgenuine.of_alike halike

theorem genuine_of_derived (h : Derived k m e) : e.Genuine k m := by
  induction h with
  | load files path loading hok hsession hmodel =>
    obtain ⟨s, hsession', hs, hnew⟩ := exists_of_load hok
    rw [hsession] at hsession'
    cases hsession'
    cases hmodel
    exact ⟨_, hsession, rfl, hs, Evaluation.genuine_of_tokens_eq_nil hs.model hs.evaluation (tokens_new hnew)⟩
  | share h hok ih =>
    obtain ⟨s, hsession, rfl, hs, -⟩ := ih
    obtain ⟨m, t, hother, ht, hmodel, hnew⟩ := exists_of_share hok
    cases (model?_eq hsession).symm.trans hother
    have hm : t.model.Valid := by
      rw [hmodel]
      exact hs.model
    have hst := Evaluation.sound_new hm hnew
    exact ⟨t, ht, hmodel, ⟨hm, hst⟩,
      Evaluation.genuine_of_tokens_eq_nil hs.model (by rw [← hmodel]; exact hst) (tokens_new hnew)⟩
  | setThreads h n ih => exact ih
  | setSeed h seed ih => exact ih
  | evaluate h c tokens ih => exact ih.evaluate c tokens
  | sample h c ih =>
    obtain ⟨s, hsession, hmodel, hs, hg⟩ := ih
    exact ⟨s, by rw [session_sample, hsession], hmodel, hs, hg⟩
  | reset h ih => exact ih.reset
  | restore h hother hcapture rest ih ihother => exact ih.restore ihother hcapture rest
  | refuse h hfail ih =>
    have hgenuine := ih
    obtain ⟨s, hsession, -, hs, -⟩ := ih
    rwa [restore_of_error hsession hs hfail]

/-- **Two evaluations that are the uncached pass over the same tokens agree.** -/
theorem Genuine.agrees (h : e.Genuine k m) (hother : other.Genuine k m) (htokens : e.evaluated = other.evaluated) :
    ∃ s t, e.session = some s ∧ other.session = some t ∧ s.Sound ∧ t.Sound ∧ s.model = t.model ∧
      s.evaluation.Agrees t.evaluation := by
  obtain ⟨s, hsession, rfl, hs, hg⟩ := h
  obtain ⟨t, hsession', hmodel, ht, hg'⟩ := hother
  have htokens' : s.evaluation.tokens = t.evaluation.tokens := by
    rwa [evaluated_eq hsession, evaluated_eq hsession'] at htokens
  have hhas : t.evaluation.hasLogits = s.evaluation.hasLogits := by
    rw [hs.evaluation.hasLogits_eq, ht.evaluation.hasLogits_eq, htokens']
  refine ⟨s, t, hsession, hsession', hs, ht, hmodel.symm, htokens', ?_, ?_⟩
  · rw [hg.history_eq, hg'.history_eq, htokens']
  · rw [Evaluation.seen, Evaluation.seen, hhas]
    by_cases hlogits : s.evaluation.hasLogits = true
    · rw [if_pos hlogits, if_pos hlogits, hg.logits_eq hlogits, hg'.logits_eq (hhas.trans hlogits), htokens']
    · rw [if_neg hlogits, if_neg hlogits]

theorem Genuine.alike (h : e.Genuine k m) (hother : other.Genuine k m) (htokens : e.evaluated = other.evaluated)
    (hrng : e.rng = other.rng) : e.Alike other := by
  obtain ⟨s, t, hsession, hsession', hs, ht, hmodel, hagree⟩ := h.agrees hother htokens
  exact ⟨s, t, hsession, hsession', hs, ht, hmodel, hagree, hrng⟩

/-- **What is drawn is drawn from the logits of the uncached pass** over the evaluated tokens. -/
theorem Genuine.sample_eq (h : e.Genuine k m) (hne : e.evaluated ≠ []) (c : Context) : (e.sample c).1 =
    (c.sampling.draw (Uncached.logits k m.hyperparameters m.weights e.evaluated) c.window e.rng).1 := by
  obtain ⟨s, hsession, rfl, hs, hg⟩ := h
  rw [evaluated_eq hsession] at hne ⊢
  have hhas := hs.evaluation.hasLogits_iff.2 hne
  simp [sample, hsession, hhas, hg.logits_eq hhas]

/-- **An engine's state depends on its tokens alone**: engines over one model with the same tokens agree in all that is
read, however these came in. -/
theorem agrees_of_evaluated_eq (he : Derived k m e) (hother : Derived k m other)
    (htokens : e.evaluated = other.evaluated) : ∃ s t, e.session = some s ∧ other.session = some t ∧
      s.evaluation.Agrees t.evaluation := by
  obtain ⟨s, t, hsession, hsession', -, -, -, hagree⟩ := (genuine_of_derived he).agrees (genuine_of_derived hother) htokens
  exact ⟨s, t, hsession, hsession', hagree⟩

/-- **Cached evaluation is the uncached pass.**  Of every engine that comes from loading a model, the cache counts as
many positions as there are tokens, its rows are those that the pass over all tokens computes, layer by layer and
bit for bit, and the logits, where there are any, are those of its last token. -/
theorem cached_eq_uncached (h : Derived k m e) : ∃ s, e.session = some s ∧ s.model = m ∧
    s.evaluation.cache.length = s.evaluation.tokens.length ∧
    s.evaluation.cache.history s.evaluation.tokens.length =
      (Uncached.rows k m.hyperparameters m.weights s.evaluation.tokens).map (fun p => (p.1.flatten, p.2.flatten)) ∧
    (s.evaluation.hasLogits = true →
      s.evaluation.logits = Uncached.logits k m.hyperparameters m.weights s.evaluation.tokens) := by
  obtain ⟨s, hsession, hmodel, hs, hg⟩ := genuine_of_derived h
  exact ⟨s, hsession, hmodel, hs.evaluation.length_eq, hg.history_eq, hg.logits_eq⟩

/-- An engine that loaded the smallest model and evaluated a token. -/
theorem cached_eq_uncached_smallest : ∃ m s,
    ((Engine.smallest 1).evaluate .machine (Context.new 2) [.ofIndex 1]).2.1.session = some s ∧ s.model = m ∧
    s.evaluation.tokens = [.ofIndex 1] ∧
    s.evaluation.cache.history 1 = (Uncached.rows .machine m.hyperparameters m.weights [.ofIndex 1]).map
      (fun p => (p.1.flatten, p.2.flatten)) ∧
    s.evaluation.logits = Uncached.logits .machine m.hyperparameters m.weights [.ofIndex 1] := by
  obtain ⟨m, v, hsizes, htokens, hload⟩ := load_smallest
  obtain ⟨v', hsession, htokens'⟩ := evaluate_smallest .machine hsizes htokens (hload 1).2
  have hderived : Derived .machine m ((Engine.smallest 1).evaluate .machine (Context.new 2) [.ofIndex 1]).2.1 :=
    .evaluate (.load _ _ _ (hload 1).1 (hload 1).2 rfl) _ _
  obtain ⟨s, hs, hmodel, -, hhistory, hlogits⟩ := cached_eq_uncached hderived
  rw [hsession] at hs
  cases hs
  have hsound := sound_of_reachable (.evaluate (reachable_smallest .machine 1) _ _) _ hsession
  have hhas : v'.hasLogits = true := hsound.evaluation.hasLogits_iff.2 (by rw [htokens']; exact List.cons_ne_nil _ _)
  have hlogits' := hlogits hhas
  rw [htokens'] at hhistory hlogits'
  exact ⟨m, _, hsession, rfl, htokens', hhistory, hlogits'⟩

end Engine

/-- Engines with the smallest model that evaluated any of its tokens, as many as there is room for. -/
theorem exists_derived_smallest : ∃ m : Model, m.hyperparameters = smallestSizes ∧ ∀ tokens : List Token,
    tokens.length ≤ 2 → (∀ t ∈ tokens, t.isBelow 2 = true) →
      ∃ e : Engine, Engine.Derived .machine m e ∧ e.evaluated = tokens ∧ e.rng = ⟨1⟩ := by
  obtain ⟨m, v, hsizes, htokens, hload⟩ := load_smallest
  have hsmallest : Engine.Derived .machine m (Engine.smallest 1) := .load _ _ _ (hload 1).1 (hload 1).2 rfl
  refine ⟨m, hsizes, fun tokens hlength hbelow => ?_⟩
  by_cases hne : tokens = []
  · refine ⟨_, hsmallest, ?_, Engine.rng_smallest 1⟩
    rw [Engine.evaluated_eq (hload 1).2, htokens, hne]
  · refine ⟨_, hsmallest.evaluate (Context.new 2) tokens, ?_,
      (Engine.rng_evaluate _ _ _ _).trans (Engine.rng_smallest 1)⟩
    have hs := Engine.sound_of_reachable (reachable_smallest .machine 1) _ (hload 1).2
    have hroom : (Context.new 2).position + tokens.length ≤ m.hyperparameters.context := by
      rw [hsizes]
      simpa [Context.new, smallestSizes] using hlength
    obtain ⟨v', hv', heq⟩ := Engine.exists_evaluate (k := .machine) (hload 1).2 hs (c := Context.new 2) hne
      (Nat.zero_le _) hroom (by rw [hsizes]; exact hbelow)
    rw [heq]
    exact hv'.tokens_eq

end CausalLM.Decoder
