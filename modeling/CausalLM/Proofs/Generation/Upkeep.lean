import CausalLM.Proofs.Generation.Progress
/-!
# Proofs.Generation.Upkeep — what a generation keeps of its engine and its context

What a run keeps of its backend and its context (`Backend.Upholds`) a generation keeps from before it starts, whether it
starts or is refused, to the end of any number of calls (`start_upholds`, `resume_upholds`, `pull_upholds`).  Over an
engine this is so of the knobs of the context (`Engine.upholds_settings`), and of every relation between the tokens of the
context and those of the engine that holds of none and that going back and appending the same tokens keeps
(`Engine.upholds_related`): that there is any such relation, that the context's tokens come first, that they are all.
-/
namespace CausalLM

/-- Two contexts that differ in their history alone. -/
def Context.SameSettings (c d : Context) : Prop := d = { c with tokens := d.tokens, position := d.position }

theorem Context.SameSettings.trans {c d c' : Context} (h : c.SameSettings d) (h' : d.SameSettings c') :
    c.SameSettings c' := by
  rw [SameSettings] at h h' ⊢
  rw [h', h]

namespace Decoder.Engine

theorem sameSettings_evaluate (k : Kernels) (e : Engine) (c : Context) (tokens : List Token) :
    c.SameSettings (e.evaluate k c tokens).2.2 := by
  unfold evaluate
  split
  · rfl
  · dsimp only
    split
    · rfl
    split
    · rfl
    split
    · rfl
    split
    · rfl
    · split <;> rfl

theorem upholds_settings (c : Context) : Backend.Upholds fun (_ : Engine) d => c.SameSettings d where
  evaluate e d tokens h := h.trans (sameSettings_evaluate .machine e d tokens)
  reset _ _ d _ h := h.trans (show d.SameSettings d.clear from rfl)
  refuse _ _ _ _ _ h := h

/-- **Tokens change a sound engine and its context or nothing**: both go back to the context's position and have the
tokens put behind it. -/
theorem Sound.evaluate_cases {k : Kernels} {e : Engine} (h : e.Sound) (c : Context) (tokens : List Token) :
    (∃ answer, e.evaluate k c tokens = (answer, e, c)) ∨
    ∃ e' : Engine, e'.Sound ∧ c.position ≤ e.evaluated.length ∧ e'.evaluated = e.evaluated.take c.position ++ tokens ∧
      e.evaluate k c tokens = (.ok (), e',
        { c with tokens := c.tokens.take c.position ++ tokens, position := c.position + tokens.length }) := by
  cases hsession : e.session with
  | none => exact .inl ⟨.error .notLoaded, by rw [Engine.evaluate, hsession]⟩
  | some s =>
    have hs := h s hsession
    cases hadmission : admission s.model.hyperparameters s.evaluation.position c.position tokens with
    | some answer =>
      have heq := evaluate_eq (k := k) hsession hs c tokens
      rw [hadmission] at heq
      exact .inl ⟨answer, heq⟩
    | none =>
      obtain ⟨hne, hstart, hroom, hbelow⟩ := of_admission_eq_none hadmission
      obtain ⟨v, hv, heq⟩ := exists_evaluate (k := k) hsession hs hne hstart hroom hbelow
      rw [evaluated_eq hsession]
      refine .inr ⟨{ e with evaluation := some v }, ?_, hstart, hv.tokens_eq, heq⟩
      exact sound_some (session_of_loaded_eq hsession rfl rfl) ⟨hs.model, hv.sound⟩

theorem evaluated_of_reset {e e' : Engine} (h : e.reset = (.ok (), e')) : e'.evaluated = [] := by
  rw [reset] at h
  split at h
  · cases h
  · cases h
    rfl

theorem eq_of_reset {e e' : Engine} {err : Error} (h : e.reset = (.error err, e')) : e' = e := by
  rw [reset] at h
  split at h
  · cases h
    rfl
  · cases h

/-- **The tokens of a sound engine and of its context are related**, and the context's position is behind its own. -/
structure Related (R : List Token → List Token → Prop) (e : Engine) (c : Context) : Prop where
  sound : e.Sound
  position_eq : c.position = c.tokens.length
  tokens : R c.tokens e.evaluated

/-- **A relation that going back to the context's tokens and appending keeps** is kept by all that a run does. -/
theorem upholds_related {R : List Token → List Token → Prop} (hnil : R [] [])
    (hstep : ∀ held evaluated tokens, R held evaluated → held.length ≤ evaluated.length →
      R (held ++ tokens) (evaluated.take held.length ++ tokens)) :
    Backend.Upholds (Related R) where
  evaluate e c tokens h := by
    rcases h.sound.evaluate_cases (k := .machine) c tokens with ⟨answer, heq⟩ | ⟨e', hs, hle, htokens, heq⟩
    · have heq' : Backend.evaluate e c tokens = (answer, e, c) := heq
      rw [heq']
      exact h
    · have heq' : Backend.evaluate e c tokens = _ := heq
      have hhistory : c.tokens.take c.position = c.tokens := by rw [h.position_eq, List.take_length]
      rw [heq', hhistory]
      rw [h.position_eq] at hle htokens ⊢
      refine ⟨hs, List.length_append.symm, ?_⟩
      rw [htokens]
      exact hstep _ _ _ h.tokens hle
  reset e e' c hreset h := by
    have hsound := h.sound.reset
    have hreset' : e.reset = (.ok (), e') := hreset
    rw [hreset'] at hsound
    refine ⟨hsound, rfl, ?_⟩
    rw [evaluated_of_reset hreset']
    exact hnil
  refuse e e' c err hreset h := by
    rwa [eq_of_reset hreset]

theorem Related.sample {R : List Token → List Token → Prop} {e : Engine} {c : Context} (h : Related R e c) :
    Related R (e.sample c).2 c := by
  have hsession := session_sample e c
  refine ⟨fun s hs => h.sound s (hsession ▸ hs), h.position_eq, ?_⟩
  rw [evaluated_sample]
  exact h.tokens

end Decoder.Engine

namespace Generation

open Decoder (Engine)

variable {σ : Type} [Backend σ] {P : σ → Context → Prop} {g : Generation σ}

/-! ## Calls -/

theorem next_upholds (hP : Backend.Upholds P) (hsample : ∀ (b : σ) (c : Context), P b c → P (Backend.sample b c).2 c)
    (h : P g.run.backend g.run.context) : P g.next.2.run.backend g.next.2.run.context := by
  fun_induction Generation.next g with
  | case1 g hd => exact h
  | case2 g hd hbudget => rwa [run_finish]
  | case3 g hd hbudget e run hstep =>
    have hrun := Run.step_upholds hP hsample h
    rw [hstep] at hrun
    rwa [run_fail]
  | case4 g hd hbudget run hstep =>
    have hrun := Run.step_upholds hP hsample h
    rw [hstep] at hrun
    rwa [run_finish]
  | case5 g hd hbudget t run hstep taken htext ih =>
    have hrun := Run.step_upholds hP hsample h
    rw [hstep] at hrun
    exact ih hrun
  | case6 g hd hbudget t run hstep taken htext =>
    have hrun := Run.step_upholds hP hsample h
    rwa [hstep] at hrun

theorem pull_upholds (hP : Backend.Upholds P) (hsample : ∀ (b : σ) (c : Context), P b c → P (Backend.sample b c).2 c) :
    ∀ (n : Nat) {g : Generation σ}, P g.run.backend g.run.context →
      P (pull n g).2.run.backend (pull n g).2.run.context
  | 0, _, h => h
  | n + 1, _, h => pull_upholds hP hsample n (next_upholds hP hsample h)

/-! ## Beginnings -/

/-- What a start leaves: the run of the generation, or of the attempt. -/
def Start.run : Start σ → Run σ
  | .ok g => g.run
  | .error (_, r) => r

/-- **A start keeps what a run keeps**, where the options do not matter to it. -/
theorem start_upholds (hP : Backend.Upholds P) {b : σ} {c : Context} {o : Options} (prompt : String) (h : P b c)
    (hfirst : P (firstRun b c o).backend (configure b c o)) :
    P (start b c prompt o).run.backend (start b c prompt o).run.context := by
  rw [start_eq]
  split
  · exact h
  split
  · exact hfirst
  rename_i tokens _
  split
  · exact hfirst
  split
  · exact hfirst
  have hfed := Run.feedAll_upholds hP (chunks o.batch tokens) (r := firstRun b c o) hfirst
  split
  · rename_i hr
    rwa [hr] at hfed
  · rename_i hr
    rwa [hr] at hfed

theorem resume_upholds {b : σ} {c : Context} {o : Options} (h : P b c) (hconfigured : P b (configure b c o)) :
    P (resume b c o).run.backend (resume b c o).run.context := by
  unfold resume prepare
  cases Backend.isLoaded b with
  | false => exact h
  | true =>
    cases o.validate with
    | error e => exact h
    | ok =>
      simp only [Bool.not_true, Bool.false_eq_true, if_false]
      split <;> exact hconfigured

end Generation
end CausalLM
