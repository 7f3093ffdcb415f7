import CausalLM.Proofs.Generation.Upkeep
import Mathlib.Data.List.ReduceOption
/-!
# Proofs.Generation.Metering — what a generation asks of its backend

A metered backend answers as the one inside it and keeps a record of what it is asked (`Metered`).  A run cannot tell the
two apart, because taking the meter off is a map that every operation respects (`pull_map`).  So what stands in the record
after some calls is what the generation asked of its backend, and `Ledger` bounds it together with the items it gave.
-/
namespace CausalLM

/-! ## Maps between backends -/

/-- **A map between backends that a run respects**: what it maps to gives the same answers, and the images of the same
backends. -/
structure Backend.Respects {σ τ : Type} [Backend σ] [Backend τ] (f : σ → τ) : Prop where
  endTokens_eq : ∀ b, endTokens (f b) = endTokens b
  tokenBytes_eq : ∀ b t, tokenBytes (f b) t = tokenBytes b t
  evaluate_eq : ∀ b c l, evaluate (f b) c l = ((evaluate b c l).1, f (evaluate b c l).2.1, (evaluate b c l).2.2)
  sample_eq : ∀ b c, sample (f b) c = ((sample b c).1, f (sample b c).2)
  reset_eq : ∀ b, reset (f b) = ((reset b).1, f (reset b).2)

namespace Generation

variable {σ τ : Type}

def Run.map (f : σ → τ) (r : Run σ) : Run τ := ⟨f r.backend, r.context, r.recycled⟩

def map (f : σ → τ) (g : Generation σ) : Generation τ :=
  ⟨g.run.map f, g.budget, g.generated, g.held, g.promptTokens, g.count, g.stop, g.done⟩

section

variable [Backend σ] [Backend τ] {f : σ → τ}

theorem Run.evaluate_map (hf : Backend.Respects f) (r : Run σ) (l : List Token) :
    (r.map f).evaluate l = ((r.evaluate l).1, (r.evaluate l).2.map f) := by
  simp only [evaluate, Run.map, hf.evaluate_eq]

theorem Run.evaluateAll_map (hf : Backend.Respects f) : ∀ (pieces : List (List Token)) (r : Run σ),
    (r.map f).evaluateAll pieces = ((r.evaluateAll pieces).1, (r.evaluateAll pieces).2.map f)
  | [], r => rfl
  | piece :: rest, r => by
    rw [evaluateAll, evaluateAll, evaluate_map hf]
    rcases r.evaluate piece with ⟨_ | _, r'⟩
    · rfl
    · exact evaluateAll_map hf rest r'

theorem Run.recycle_map (hf : Backend.Respects f) (r : Run σ) (incoming : Nat) :
    (r.map f).recycle incoming = ((r.recycle incoming).1, (r.recycle incoming).2.map f) := by
  unfold recycle
  simp only [Run.map, hf.reset_eq]
  split
  · rfl
  · split
    · rfl
    split
    · rfl
    · rename_i fraction _ _ _
      rcases Backend.reset r.backend with ⟨_ | _, b⟩
      · rfl
      · have hall := evaluateAll_map hf
          (chunks (max r.context.batch 1) (r.context.tokens.drop (dropCount r.context fraction incoming)))
          ⟨b, r.context.clear, r.recycled⟩
        simp only
        rw [Run.map] at hall
        rw [hall]
        rcases evaluateAll (⟨b, r.context.clear, r.recycled⟩ : Run σ)
          (chunks (max r.context.batch 1) (r.context.tokens.drop (dropCount r.context fraction incoming))) with
          ⟨_ | _, r'⟩ <;> rfl

theorem Run.feed_map (hf : Backend.Respects f) (r : Run σ) (l : List Token) :
    (r.map f).feed l = ((r.feed l).1, (r.feed l).2.map f) := by
  rw [feed, feed, recycle_map hf, evaluate_map hf]
  by_cases hroom : r.context.capacity < r.context.position + l.length
  · rw [if_pos hroom, if_pos (show (r.map f).context.capacity < (r.map f).context.position + l.length from hroom)]
    rcases r.recycle l.length with ⟨_ | _, r'⟩
    · rfl
    · exact evaluate_map hf r' l
  · rw [if_neg hroom, if_neg (show ¬(r.map f).context.capacity < (r.map f).context.position + l.length from hroom)]

theorem Run.step_map (hf : Backend.Respects f) (r : Run σ) : (r.map f).step = (r.step.1, r.step.2.map f) := by
  rw [step_eq, step_eq]
  simp only [Run.map, hf.sample_eq]
  rcases Backend.sample r.backend r.context with ⟨_ | t, b⟩
  · rfl
  · have hfeed := feed_map hf ⟨b, r.context, r.recycled⟩ [t]
    simp only [hf.endTokens_eq]
    by_cases hend : (Backend.endTokens b).contains t = true
    · simp only [hend, if_true]
    · rw [Run.map] at hfeed
      simp only [hend, hfeed]
      rcases feed (⟨b, r.context, r.recycled⟩ : Run σ) [t] with ⟨_ | _, r'⟩ <;> rfl

omit [Backend σ] [Backend τ] in
theorem finish_map (g : Generation σ) (reason : StopReason) :
    (g.map f).finish reason = ((g.finish reason).1, (g.finish reason).2.map f) := by
  unfold finish
  by_cases hheld : g.held.isEmpty = true
  · simp only [map, hheld, if_true]
  · simp only [map, hheld]
    rfl

omit [Backend σ] [Backend τ] in
theorem fail_map (g : Generation σ) (e : Failure) : (g.map f).fail e = ((g.fail e).1, (g.fail e).2.map f) := by
  cases e <;> rfl

theorem accept_map (hf : Backend.Respects f) (g : Generation σ) (t : Token) :
    (g.map f).accept t = ((g.accept t).1, (g.accept t).2.map f) := by
  unfold accept
  simp only [map, Run.map, hf.tokenBytes_eq]

/-- **A call of `next` gives the same through a map that is respected.** -/
theorem next_map (hf : Backend.Respects f) (g : Generation σ) : (g.map f).next = (g.next.1, g.next.2.map f) := by
  have hstep_map : (g.map f).run.step = (g.run.step.1, g.run.step.2.map f) := g.run.step_map hf
  fun_induction Generation.next g with
  | case1 g hd => exact next_of_isDone hd
  | case2 g hd hbudget =>
    rw [next_of_spent (show ¬(g.map f).isDone = true from hd) hbudget]
    exact finish_map g _
  | case3 g hd hbudget e run hstep =>
    rw [next_of_going (show ¬(g.map f).isDone = true from hd) hbudget, hstep_map, hstep]
    exact fail_map { g with run } e
  | case4 g hd hbudget run hstep =>
    rw [next_of_going (show ¬(g.map f).isDone = true from hd) hbudget, hstep_map, hstep]
    exact finish_map { g with run } _
  | case5 g hd hbudget t run hstep taken htext ih =>
    have htaken : ({ g.map f with run := run.map f } : Generation τ).accept t = (taken.1, taken.2.map f) :=
      accept_map hf { g with run } t
    rw [next_of_going (show ¬(g.map f).isDone = true from hd) hbudget, hstep_map, hstep]
    simp only [htaken, htext, if_true]
    exact ih (taken.2.run.step_map hf)
  | case6 g hd hbudget t run hstep taken htext =>
    have htaken : ({ g.map f with run := run.map f } : Generation τ).accept t = (taken.1, taken.2.map f) :=
      accept_map hf { g with run } t
    rw [next_of_going (show ¬(g.map f).isDone = true from hd) hbudget, hstep_map, hstep]
    simp only [htaken]
    rw [if_neg htext]

theorem pull_map (hf : Backend.Respects f) : ∀ (n : Nat) (g : Generation σ),
    pull n (g.map f) = ((pull n g).1, (pull n g).2.map f)
  | 0, _ => rfl
  | n + 1, g => by
    rw [pull, pull, next_map hf]
    simp only
    rw [pull_map hf n]

end

end Generation

/-! ## Meters -/

/-- What is asked of a backend while a generation goes on. -/
inductive Backend.Call where
  | evaluate (tokens : List Token)
  | sample
  | reset
  deriving DecidableEq

/-- **A backend with a record of what it was asked**, the last call first. -/
structure Metered (σ : Type) where
  backend : σ
  calls : List Backend.Call

namespace Metered

variable {σ : Type}

def samples (m : Metered σ) : Nat := m.calls.count .sample

variable [Backend σ]

instance : Backend (Metered σ) where
  architecture m := Backend.architecture m.backend
  isLoaded m := Backend.isLoaded m.backend
  contextLength m := Backend.contextLength m.backend
  endTokens m := Backend.endTokens m.backend
  tokenize m c text := Backend.tokenize m.backend c text
  tokenBytes m t := Backend.tokenBytes m.backend t
  evaluate m c l :=
    let (answer, b, c) := Backend.evaluate m.backend c l
    (answer, ⟨b, .evaluate l :: m.calls⟩, c)
  sample m c :=
    let (answer, b) := Backend.sample m.backend c
    (answer, ⟨b, .sample :: m.calls⟩)
  reset m :=
    let (answer, b) := Backend.reset m.backend
    (answer, ⟨b, .reset :: m.calls⟩)
  evaluated m := Backend.evaluated m.backend
  setSeed m seed := ⟨Backend.setSeed m.backend seed, m.calls⟩
  stateBytes m := Backend.stateBytes m.backend
  save m buffer := Backend.save m.backend buffer
  restore m buffer :=
    let (answer, b) := Backend.restore m.backend buffer
    (answer, ⟨b, m.calls⟩)
  hyperparameters m := Backend.hyperparameters m.backend
  memoryUsage m := Backend.memoryUsage m.backend

/-- **A run cannot see the meter.** -/
theorem respects : Backend.Respects (Metered.backend : Metered σ → σ) :=
  ⟨fun _ => rfl, fun _ _ => rfl, fun _ _ _ => rfl, fun _ _ => rfl, fun _ => rfl⟩

theorem stable {P : σ → Prop} (h : Backend.Stable P) : Backend.Stable fun m : Metered σ => P m.backend :=
  ⟨fun m => h.evaluate m.backend, fun m => h.sample m.backend, fun m => h.reset m.backend⟩

theorem steady_samples (n : Nat) : Backend.Steady fun m : Metered σ => m.samples = n := by
  constructor
  · intro m c l h
    rw [← h]
    exact List.count_cons_of_ne (by simp)
  · intro m h
    rw [← h]
    exact List.count_cons_of_ne (by simp)

end Metered

namespace Generation

variable {σ : Type}

theorem samples_step [Backend σ] {r r' : Run (Metered σ)} {answer : Except Failure (Option Token)}
    (h : r.step = (answer, r')) : r'.backend.samples = r.backend.samples + 1 := by
  have hsample : (Backend.sample r.backend r.context).2.samples = r.backend.samples + 1 := List.count_cons_self
  rcases r.step_cases with ⟨e, b, hb, hstep⟩ | ⟨t, b, hb, -, hstep⟩ | ⟨t, b, fed, r'', hb, -, hfeed, hstep⟩
  · rw [h] at hstep
    cases hstep
    rwa [hb] at hsample
  · rw [h] at hstep
    cases hstep
    rwa [hb] at hsample
  · rw [hb] at hsample
    have hfed := Run.feed_steady (Metered.steady_samples _) (r := { r with backend := b }) hsample [t]
    rw [h] at hstep
    cases hstep
    rwa [hfeed] at hfed

theorem not_mem_endTokens_of_step [Backend σ] {ends : List Token}
    (hb : Backend.Stable fun b : σ => Backend.endTokens b = ends) {r r' : Run σ} {t : Token}
    (hends : Backend.endTokens r.backend = ends) (hgiven : r.step = (.ok (some t), r')) : t ∉ ends := by
  have hsample := hb.sample r.backend r.context hends
  rcases r.step_cases with ⟨e, b, -, hstep⟩ | ⟨u, b, -, -, hstep⟩ | ⟨u, b, answer, r'', hu, hnot, -, hstep⟩
  · rw [hgiven] at hstep
    cases hstep
  · rw [hgiven] at hstep
    cases hstep
  · rw [hgiven] at hstep
    rw [hu] at hsample
    cases answer with
    | error e => cases hstep
    | ok =>
      cases hstep
      rwa [← hsample]

/-! ## The ledger -/

/-- **The ledger of a generation** with so many tokens to generate, after it gave `given`: what its backend was asked and
what it gave stay within the budget, all it gave is text but possibly the last, and while it goes on every sample has
become a token. -/
structure Ledger [Backend σ] (budget : Nat) (ends : List Token) (given : List (Except Failure String))
    (g : Generation (Metered σ)) : Prop where
  budget_eq : g.budget = budget
  ends_eq : Backend.endTokens g.run.backend = ends
  count_le : g.count ≤ budget
  ordinary : ∀ t ∈ g.generated, t ∉ ends
  samples_le : g.run.backend.samples ≤ budget
  given_le : given.length ≤ budget + 1
  given_eq : ∃ texts : List String, given = texts.map .ok ∨
    g.stop = some .error ∧ ∃ e : Error, given = texts.map .ok ++ [.error (.error e)]
  going : g.isDone = false → g.run.backend.samples = g.count ∧ given.length ≤ g.count ∧
    ∃ texts : List String, given = texts.map .ok

section

variable [Backend σ] {budget : Nat} {ends : List Token} {given : List (Except Failure String)}
  {g : Generation (Metered σ)}

/-- Stopping well, after a last step or without one, gives at most one text more. -/
theorem Ledger.finish (h : Ledger budget ends given g) {run : Run (Metered σ)}
    (hends : Backend.endTokens run.backend = ends) (hsamples : run.backend.samples ≤ budget)
    (hgiven : given.length ≤ budget) {texts : List String} (htexts : given = texts.map .ok) (reason : StopReason) :
    Ledger budget ends (given ++ (({ g with run } : Generation (Metered σ)).finish reason).1.toList)
      (({ g with run } : Generation (Metered σ)).finish reason).2 := by
  subst htexts
  unfold Generation.finish
  split
  · refine ⟨h.budget_eq, hends, h.count_le, h.ordinary, hsamples, ?_, ⟨texts, .inl ?_⟩, fun hd => by cases hd⟩
    · simpa using Nat.le_succ_of_le hgiven
    · simp
  · refine ⟨h.budget_eq, hends, h.count_le, h.ordinary, hsamples, ?_, ⟨texts ++ [Utf8.toStringLossy g.held], .inl ?_⟩,
      fun hd => by cases hd⟩
    · simpa using hgiven
    · simp

theorem Ledger.step (hb : Backend.Stable fun b : Metered σ => Backend.endTokens b = ends)
    (h : Ledger budget ends given g) (hd : ¬g.isDone = true) (hbudget : ¬g.budget ≤ g.count)
    {answer : Except Failure (Option Token)} {run : Run (Metered σ)} (hstep : g.run.step = (answer, run)) :
    Backend.endTokens run.backend = ends ∧ run.backend.samples = g.count + 1 ∧ run.backend.samples ≤ budget := by
  obtain ⟨hsamples, -⟩ := h.going (Bool.eq_false_iff.2 hd)
  have hends := Run.step_stable hb h.ends_eq
  rw [hstep] at hends
  have hsampled : run.backend.samples = g.count + 1 := (samples_step hstep).trans (congrArg (· + 1) hsamples)
  refine ⟨hends, hsampled, ?_⟩
  rw [hsampled, ← h.budget_eq]
  exact Nat.lt_of_not_le hbudget

/-- Taking in a token that a step gave, with the text it completes or without one. -/
theorem Ledger.accept (hb : Backend.Stable fun b : Metered σ => Backend.endTokens b = ends)
    (h : Ledger budget ends given g) (hd : ¬g.isDone = true) (hbudget : ¬g.budget ≤ g.count) {t : Token}
    {run : Run (Metered σ)} (hstep : g.run.step = (.ok (some t), run)) (fragment : Option String) :
    Ledger budget ends (given ++ (fragment.map Except.ok).toList) (({ g with run } : Generation (Metered σ)).accept t).2 := by
  obtain ⟨hends, hsamples, hspent⟩ := h.step hb hd hbudget hstep
  obtain ⟨-, hgiven, texts, rfl⟩ := h.going (Bool.eq_false_iff.2 hd)
  have ht := not_mem_endTokens_of_step hb h.ends_eq hstep
  have hgrown : (texts.map Except.ok ++ (fragment.map Except.ok).toList : List (Except Failure String)) =
      (texts ++ fragment.toList).map .ok := by
    cases fragment <;> simp
  have hone : fragment.toList.length ≤ 1 := by cases fragment <;> simp
  rw [hgrown]
  rw [List.length_map] at hgiven
  refine ⟨h.budget_eq, hends, ?_, ?_, ?_, ?_, ⟨_, .inl rfl⟩, fun _ => ⟨?_, ?_, _, rfl⟩⟩
  · show g.count + 1 ≤ budget
    omega
  · intro u hu
    rcases List.mem_append.1 hu with hu | hu
    · exact h.ordinary u hu
    · rwa [List.mem_singleton.1 hu]
  · show run.backend.samples ≤ budget
    omega
  · rw [List.length_map, List.length_append]
    omega
  · show run.backend.samples = g.count + 1
    omega
  · show ((texts ++ fragment.toList).map Except.ok).length ≤ g.count + 1
    rw [List.length_map, List.length_append]
    omega

/-- **A call of `next` that comes back keeps the ledger.** -/
theorem Ledger.next (hb : Backend.Stable fun b : Metered σ => Backend.endTokens b = ends)
    (h : Ledger budget ends given g) (hok : g.next.1 ≠ some (.error .panic)) :
    Ledger budget ends (given ++ g.next.1.toList) g.next.2 := by
  fun_induction Generation.next g generalizing given with
  | case1 g hd => simpa using h
  | case2 g hd hbudget =>
    obtain ⟨-, hgiven, texts, htexts⟩ := h.going (Bool.eq_false_iff.2 hd)
    exact h.finish h.ends_eq h.samples_le (Nat.le_trans hgiven h.count_le) htexts _
  | case3 g hd hbudget e run hstep =>
    obtain ⟨hends, -, hspent⟩ := h.step hb hd hbudget hstep
    obtain ⟨-, hgiven, texts, rfl⟩ := h.going (Bool.eq_false_iff.2 hd)
    cases e with
    | panic => exact absurd rfl hok
    | error e =>
      refine ⟨h.budget_eq, hends, h.count_le, h.ordinary, hspent, ?_, ⟨texts, .inr ⟨rfl, e, rfl⟩⟩, fun h => by cases h⟩
      show (texts.map Except.ok ++ [Except.error (Failure.error e)]).length ≤ budget + 1
      rw [List.length_append, List.length_singleton]
      exact Nat.succ_le_succ (Nat.le_trans hgiven h.count_le)
  | case4 g hd hbudget run hstep =>
    obtain ⟨hends, -, hspent⟩ := h.step hb hd hbudget hstep
    obtain ⟨-, hgiven, texts, htexts⟩ := h.going (Bool.eq_false_iff.2 hd)
    exact h.finish hends hspent (Nat.le_trans hgiven h.count_le) htexts _
  | case5 g hd hbudget t run hstep taken htext =>
    -- the token gave no text, and the call goes on with the next one
    rename_i ih
    have htaken := h.accept hb hd hbudget hstep none
    rw [Option.map_none, Option.toList_none, List.append_nil] at htaken
    exact ih htaken hok
  | case6 g hd hbudget t run hstep htext => exact h.accept hb hd hbudget hstep (some _)

theorem Ledger.pull (hb : Backend.Stable fun b : Metered σ => Backend.endTokens b = ends) :
    ∀ (n : Nat) {given : List (Except Failure String)} {g : Generation (Metered σ)}, Ledger budget ends given g →
      Calm (pull n g).1 → Ledger budget ends (given ++ (pull n g).1.reduceOption) (pull n g).2
  | 0, _, _, h, _ => by simpa [Generation.pull] using h
  | n + 1, given, g, h, hcalm => by
    obtain ⟨hok, hcalm⟩ := calm_cons.1 hcalm
    have hrest := Ledger.pull hb n (h.next hb hok) hcalm
    have hitems : (g.next.1 :: (Generation.pull n g.next.2).1).reduceOption =
        g.next.1.toList ++ (Generation.pull n g.next.2).1.reduceOption := by
      cases g.next.1 <;> simp
    rw [List.append_assoc, ← hitems] at hrest
    exact hrest

end

/-! ## From the start -/

end Generation
end CausalLM
