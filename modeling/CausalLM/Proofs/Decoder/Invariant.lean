import CausalLM.Proofs.Decoder.Reach
import CausalLM.Proofs.Sampling
/-!
# Proofs.Decoder.Invariant — what a reachable engine holds and answers

Between any two operations the parts of an evaluation are in step with each other and with the model
(`InStep`), so sampling answers as the state says (`inStep_of_reachable`).  Evaluating is all or nothing: the checks
in front are the only ones that can refuse, and they come before anything changes (`evaluate_all_or_nothing`).
-/
namespace CausalLM.Decoder

variable {k : Kernels}

/-- **The parts of an evaluation are in step** with each other and with the model. -/
structure InStep (m : Model) (v : Evaluation) : Prop where
  cache_length : v.cache.length = v.tokens.length
  tokens_le : v.tokens.length ≤ m.hyperparameters.context
  tokens_below : ∀ t ∈ v.tokens, t.isBelow m.hyperparameters.vocab = true
  logits_length : v.logits.length = m.hyperparameters.vocab
  spare_length : v.work.logits.length = m.hyperparameters.vocab
  key_layers : v.cache.keyBuffers.length = m.hyperparameters.layers
  value_layers : v.cache.valueBuffers.length = m.hyperparameters.layers
  keys_length : ∀ b ∈ v.cache.keyBuffers, b.length = m.hyperparameters.context * m.hyperparameters.rowWidth
  values_length : ∀ b ∈ v.cache.valueBuffers, b.length = m.hyperparameters.context * m.hyperparameters.rowWidth
  hasLogits_iff : v.hasLogits = true ↔ v.tokens ≠ []

theorem Evaluation.Sound.inStep {m : Model} {v : Evaluation} (hs : v.Sound m) : InStep m v where
  cache_length := hs.length_eq
  tokens_le := hs.tokens_le
  tokens_below := hs.tokens_below
  logits_length := hs.logits_length
  spare_length := hs.sized.logits
  key_layers := hs.shaped.keys_uniform.1
  value_layers := hs.shaped.values_uniform.1
  keys_length b hb := by rw [hs.shaped.keys_uniform.2 b hb, Nat.mul_comm]
  values_length b hb := by rw [hs.shaped.values_uniform.2 b hb, Nat.mul_comm]
  hasLogits_iff := hs.hasLogits_iff

namespace Engine

variable {e : Engine} {s : Session}

/-! ## Sampling -/

theorem sample_of_unloaded (h : e.session = none) (c : Context) : (e.sample c).1 = .error .notLoaded := by
  rw [sample, h]

theorem sample_of_nothing_evaluated (hsession : e.session = some s) (hs : s.Sound) (hnil : s.evaluation.tokens = [])
    (c : Context) : (e.sample c).1 = .error .notReady := by
  have hhas : s.evaluation.hasLogits = false := by
    rw [hs.evaluation.hasLogits_eq, hnil]
    rfl
  rw [sample, hsession]
  simp only [hhas]
  rfl

/-- **With logits, sampling gives a token of the vocabulary**, whatever the context asks for. -/
theorem exists_sample (hsession : e.session = some s) (hs : s.Sound) (hne : s.evaluation.tokens ≠ []) (c : Context) :
    ∃ t, (e.sample c).1 = .ok t ∧ t.isBelow s.model.hyperparameters.vocab = true := by
  have hvocab := hs.model.sizes.vocab_pos
  have hlogits : s.evaluation.logits ≠ [] := by
    rw [← List.length_pos_iff, hs.evaluation.logits_length]
    exact hvocab
  obtain ⟨i, g', hdraw, hi⟩ := Sampling.exists_draw c.sampling hlogits c.window e.rng
  rw [hs.evaluation.logits_length] at hi
  refine ⟨.ofIndex i, ?_, ?_⟩
  · rw [sample, hsession]
    simp only [hs.evaluation.hasLogits_iff.2 hne, hdraw]
    rfl
  · -- the vocabulary is short enough for its indices to be tokens
    have hsmall : i < 2 ^ 31 :=
      Nat.lt_of_lt_of_le hi (Nat.le_trans hs.model.vocab_le (by decide))
    exact Token.isBelow_iff.2 ⟨i, Token.index?_ofIndex hsmall, hi⟩

/-- **Every reachable engine is in step.**  It has a model and an evaluation, or neither.  Without them sampling says
that nothing is loaded; with them all parts of the evaluation are in step, and sampling says that nothing is ready
exactly if nothing was evaluated, and otherwise gives a token of the vocabulary. -/
theorem inStep_of_reachable (h : Reachable k e) (c : Context) :
    match e.model?, e.evaluation with
    | none, none => (e.sample c).1 = .error .notLoaded
    | some m, some v => InStep m v ∧ (e.sample c).1 ≠ .error .notLoaded ∧
        ((e.sample c).1 = .error .notReady ↔ v.tokens = []) ∧
        (v.tokens ≠ [] → ∃ t, (e.sample c).1 = .ok t ∧ t.isBelow m.hyperparameters.vocab = true)
    | _, _ => False := by
  have hpaired := paired_of_reachable h
  cases hmodel : e.model? with
  | none =>
    have hloaded : e.loaded = none := Option.map_eq_none_iff.1 hmodel
    have hnothing : e.evaluation = none := by
      rw [Paired, hloaded] at hpaired
      exact Option.isNone_iff_eq_none.1 (Option.isSome_eq_false_iff.1 hpaired.symm)
    rw [hnothing]
    exact sample_of_unloaded (by rw [session, hloaded]) c
  | some m =>
    obtain ⟨s, hsession, rfl⟩ := hpaired.exists_session hmodel
    rw [(session_eq_some_iff.1 hsession).2]
    have hs := sound_of_reachable h s hsession
    have hready := exists_sample hsession hs
    have hnothing := sample_of_nothing_evaluated hsession hs
    refine ⟨hs.evaluation.inStep, ?_, ⟨?_, fun hnil => hnothing hnil c⟩, fun hne => hready hne c⟩
    · intro hanswer
      by_cases hnil : s.evaluation.tokens = []
      · rw [hnothing hnil c] at hanswer
        cases hanswer
      · obtain ⟨t, ht, -⟩ := hready hnil c
        rw [ht] at hanswer
        cases hanswer
    · intro hanswer
      refine Decidable.byContradiction fun hne => ?_
      obtain ⟨t, ht, -⟩ := hready hne c
      rw [ht] at hanswer
      cases hanswer

/-- An engine that loaded the smallest model and evaluated a token. -/
theorem inStep_smallest : ∃ m v t,
    let e := ((Engine.smallest 1).evaluate .machine (Context.new 2) [.ofIndex 1]).2.1
    e.model? = some m ∧ e.evaluation = some v ∧ v.tokens = [.ofIndex 1] ∧ v.cache.length = 1 ∧ v.hasLogits = true ∧
      (e.sample (Context.new 2)).1 = .ok t ∧ t.isBelow 2 = true := by
  obtain ⟨m, v, hsizes, htokens, hload⟩ := load_smallest
  obtain ⟨v', hsession, htokens'⟩ := evaluate_smallest .machine hsizes htokens (hload 1).2
  have hstep := inStep_of_reachable (.evaluate (reachable_smallest .machine 1) (Context.new 2) [.ofIndex 1])
    (Context.new 2)
  have hmodel : ((Engine.smallest 1).evaluate .machine (Context.new 2) [.ofIndex 1]).2.1.model? = some m :=
    model?_eq hsession
  have hevaluation : ((Engine.smallest 1).evaluate .machine (Context.new 2) [.ofIndex 1]).2.1.evaluation = some v' :=
    (session_eq_some_iff.1 hsession).2
  rw [hmodel, hevaluation] at hstep
  obtain ⟨hin, -, -, hsample⟩ := hstep
  have hne : v'.tokens ≠ [] := by
    rw [htokens']
    exact List.cons_ne_nil _ _
  obtain ⟨t, hanswer, hbelow⟩ := hsample hne
  rw [hsizes] at hbelow
  refine ⟨m, v', t, hmodel, hevaluation, htokens', ?_, hin.hasLogits_iff.2 hne, hanswer, hbelow⟩
  rw [hin.cache_length, htokens']
  rfl

/-! ## Evaluating -/

theorem findForeign_isSome_iff (vocab : Nat) (tokens : List Token) :
    (∃ t, findForeign vocab tokens = some t) ↔ ∃ t ∈ tokens, t.isBelow vocab = false := by
  rw [← Option.isSome_iff_exists, findForeign, List.find?_isSome]
  simp

/-- **What the checks refuse.** -/
theorem admission_eq_error_iff (h : Hyperparameters) (evaluated position : Nat) (tokens : List Token) :
    (∃ err, admission h evaluated position tokens = some (.error err)) ↔ tokens ≠ [] ∧ (evaluated < position ∨
      h.context < position + tokens.length ∨ ∃ t ∈ tokens, t.isBelow h.vocab = false) := by
  rw [← findForeign_isSome_iff]
  unfold admission
  by_cases hempty : tokens.isEmpty = true
  · simp [List.isEmpty_iff.1 hempty]
  have hne : tokens ≠ [] := by rwa [List.isEmpty_iff] at hempty
  rw [if_neg hempty]
  by_cases hahead : evaluated < position
  · simp [hahead, hne]
  by_cases hroom : h.context < position + tokens.length
  · simp [hahead, hroom, hne]
  cases hforeign : findForeign h.vocab tokens with
  | none => simp [hahead, hroom]
  | some bad => simp [hahead, hroom, hne]

/-- **Evaluating is all or nothing.**  It fails exactly for tokens behind a context that is ahead of the evaluation, for
more tokens than there is room for, and for a token outside the vocabulary; then engine and context stay as they
were.  Past these checks, where the evaluation goes back to the context's position, nothing can fail any more. -/
theorem evaluate_all_or_nothing (h : Reachable k e) (hsession : e.session = some s) (c : Context)
    (tokens : List Token) :
    ((∃ err, (e.evaluate k c tokens).1 = .error err) ↔ tokens ≠ [] ∧ (s.evaluation.position < c.position ∨
      s.model.hyperparameters.context < c.position + tokens.length ∨
      ∃ t ∈ tokens, t.isBelow s.model.hyperparameters.vocab = false)) ∧
    (∀ err, (e.evaluate k c tokens).1 = .error err → (e.evaluate k c tokens).2 = (e, c)) ∧
    (tokens ≠ [] → c.position ≤ s.evaluation.position →
      c.position + tokens.length ≤ s.model.hyperparameters.context →
      (∀ t ∈ tokens, t.isBelow s.model.hyperparameters.vocab = true) →
      ∃ v, s.evaluation.extend k s.model c.position tokens = (.ok (), v)) := by
  have hs := sound_of_reachable h s hsession
  have heq := evaluate_eq (k := k) hsession hs c tokens
  refine ⟨?_, ?_, fun hne hstart hroom hbelow => ?_⟩
  · rw [← admission_eq_error_iff]
    cases hadmission : admission s.model.hyperparameters s.evaluation.position c.position tokens with
    | none =>
      rw [hadmission] at heq
      obtain ⟨v, -, heq⟩ := heq
      simp [heq]
    | some answer =>
      rw [hadmission] at heq
      simp only at heq
      simp [heq]
  · intro err hfail
    cases hadmission : admission s.model.hyperparameters s.evaluation.position c.position tokens with
    | none =>
      rw [hadmission] at heq
      obtain ⟨v, -, heq⟩ := heq
      rw [heq] at hfail
      cases hfail
    | some answer =>
      rw [hadmission] at heq
      simp only at heq
      rw [heq]
  · obtain ⟨v, hextend, -⟩ := hs.evaluation.exists_extend (k := k) hs.model hne hstart hroom hbelow
    exact ⟨v, hextend⟩

/-- An engine that evaluated a token is asked by a context behind it for a token that does not exist. -/
theorem evaluate_all_or_nothing_smallest :
    let e := ((Engine.smallest 1).evaluate .machine (Context.new 2) [.ofIndex 1]).2.1
    e.evaluated = [.ofIndex 1] ∧ (Context.new 2).position = 0 ∧
      (∃ err, (e.evaluate .machine (Context.new 2) [.ofIndex 7]).1 = .error err) ∧
      (e.evaluate .machine (Context.new 2) [.ofIndex 7]).2 = (e, Context.new 2) := by
  intro e
  obtain ⟨m, v, hsizes, htokens, hload⟩ := load_smallest
  obtain ⟨v', hsession, htokens'⟩ := evaluate_smallest .machine hsizes htokens (hload 1).2
  obtain ⟨hfails, hkeeps, -⟩ := evaluate_all_or_nothing (.evaluate (reachable_smallest .machine 1) _ _) hsession
    (Context.new 2) [.ofIndex 7]
  obtain ⟨err, herr⟩ := hfails.2 ⟨List.cons_ne_nil _ _, .inr (.inr ⟨.ofIndex 7, List.mem_singleton.2 rfl, by
    rw [hsizes]
    decide⟩)⟩
  refine ⟨?_, rfl, ⟨err, herr⟩, hkeeps err herr⟩
  exact (evaluated_eq hsession).trans htokens'

end Engine
end CausalLM.Decoder
