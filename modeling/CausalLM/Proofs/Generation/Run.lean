import CausalLM.Generation.Run
/-!
# Proofs.Generation.Run — what every run keeps

A run changes its backend and its context by evaluating, sampling and resetting alone.  So what evaluating and resetting
keep of the two (`Backend.Upholds`) is kept by evaluating in pieces and by recycling, whether they succeed or fail, and
what sampling keeps as well is kept by every step.  A property of the backend alone is the special case that runs over
any backend need (`Backend.Stable`).  A step samples once, and then it feeds the token like one of a prompt (`step_eq`).
-/
namespace CausalLM

/-- **A property of a backend and its context that making room and evaluating keep**, also when they fail. -/
structure Backend.Upholds {σ : Type} [Backend σ] (P : σ → Context → Prop) : Prop where
  evaluate : ∀ (b : σ) (c : Context) (l : List Token), P b c → P (evaluate b c l).2.1 (evaluate b c l).2.2
  /-- A backend that was reset goes on with an empty context. -/
  reset : ∀ (b b' : σ) (c : Context), Backend.reset b = (.ok (), b') → P b c → P b' c.clear
  refuse : ∀ (b b' : σ) (c : Context) (e : Error), Backend.reset b = (.error e, b') → P b c → P b' c

/-- **A property that the operations of a run keep**: evaluating, sampling and resetting, also when they fail. -/
structure Backend.Stable {σ : Type} [Backend σ] (P : σ → Prop) : Prop where
  evaluate : ∀ (b : σ) (c : Context) (l : List Token), P b → P (evaluate b c l).2.1
  sample : ∀ (b : σ) (c : Context), P b → P (sample b c).2
  reset : ∀ b : σ, P b → P (reset b).2

/-- A property that evaluating and resetting keep. -/
structure Backend.Steady {σ : Type} [Backend σ] (P : σ → Prop) : Prop where
  evaluate : ∀ (b : σ) (c : Context) (l : List Token), P b → P (evaluate b c l).2.1
  reset : ∀ b : σ, P b → P (reset b).2

theorem Backend.Stable.steady {σ : Type} [Backend σ] {P : σ → Prop} (h : Stable P) : Steady P := ⟨h.evaluate, h.reset⟩

theorem Backend.Steady.upholds {σ : Type} [Backend σ] {P : σ → Prop} (h : Steady P) : Upholds fun b _ => P b where
  evaluate := h.evaluate
  reset b b' c hb hP := by
    have hreset := h.reset b hP
    rwa [hb] at hreset
  refuse b b' c e hb hP := by
    have hreset := h.reset b hP
    rwa [hb] at hreset

/-- **A context with a token for each of its positions.** -/
def Context.Recorded (c : Context) : Prop := c.position ≤ c.tokens.length

namespace Generation.Run

variable {σ : Type} [Backend σ]

section

variable {P : σ → Context → Prop} {r : Run σ}

theorem evaluate_upholds (hP : Backend.Upholds P) (h : P r.backend r.context) (l : List Token) :
    P (r.evaluate l).2.backend (r.evaluate l).2.context :=
  hP.evaluate r.backend r.context l h

theorem evaluateAll_upholds (hP : Backend.Upholds P) : ∀ (pieces : List (List Token)) {r : Run σ},
    P r.backend r.context → P (r.evaluateAll pieces).2.backend (r.evaluateAll pieces).2.context
  | [], _, h => h
  | piece :: rest, r, h => by
    have he := evaluate_upholds hP h piece
    rw [evaluateAll]
    split
    · rename_i hr
      rwa [hr] at he
    · rename_i hr
      rw [hr] at he
      exact evaluateAll_upholds hP rest he

theorem recycle_upholds (hP : Backend.Upholds P) (h : P r.backend r.context) (incoming : Nat) :
    P (r.recycle incoming).2.backend (r.recycle incoming).2.context := by
  unfold recycle
  dsimp only
  split
  · exact h
  · rename_i fraction _
    split
    · exact h
    split
    · exact h
    · split
      · rename_i hb
        exact hP.refuse _ _ _ _ hb h
      · rename_i b hb
        have hall := evaluateAll_upholds hP
          (chunks (max r.context.batch 1) (r.context.tokens.drop (dropCount r.context fraction incoming)))
          (r := { r with backend := b, context := r.context.clear }) (hP.reset _ _ _ hb h)
        split
        · rename_i hr
          rwa [hr] at hall
        · rename_i hr
          rwa [hr] at hall

theorem feed_upholds (hP : Backend.Upholds P) (h : P r.backend r.context) (tokens : List Token) :
    P (r.feed tokens).2.backend (r.feed tokens).2.context := by
  have hroom := recycle_upholds hP h tokens.length
  unfold feed
  split
  · split
    · rename_i hr
      rwa [hr] at hroom
    · rename_i hr
      rw [hr] at hroom
      exact evaluate_upholds hP hroom tokens
  · exact evaluate_upholds hP h tokens

theorem feedAll_upholds (hP : Backend.Upholds P) : ∀ (pieces : List (List Token)) {r : Run σ},
    P r.backend r.context → P (r.feedAll pieces).2.backend (r.feedAll pieces).2.context
  | [], _, h => h
  | piece :: rest, r, h => by
    have hfed := feed_upholds hP h piece
    rw [feedAll]
    split
    · rename_i hr
      rwa [hr] at hfed
    · rename_i hr
      rw [hr] at hfed
      exact feedAll_upholds hP rest hfed

end

variable {P : σ → Prop}

theorem feed_steady (hP : Backend.Steady P) {r : Run σ} (h : P r.backend) (tokens : List Token) :
    P (r.feed tokens).2.backend :=
  feed_upholds hP.upholds h tokens

/-- **A step feeds the token it samples**, unless that ends the text. -/
theorem step_eq (r : Run σ) : r.step = match Backend.sample r.backend r.context with
    | (.error e, backend) => (.error (.error e), { r with backend })
    | (.ok t, backend) =>
      if (Backend.endTokens backend).contains t then (.ok none, { r with backend })
      else
        let fed := ({ r with backend } : Run σ).feed [t]
        (fed.1.map fun _ => some t, fed.2) := by
  unfold step
  rcases Backend.sample r.backend r.context with ⟨_ | t, b⟩
  · rfl
  · -- the history is full exactly if there is no room for one more
    have hfull : r.context.remaining = 0 ↔ r.context.capacity < r.context.position + [t].length := by
      simp only [Context.remaining, List.length_singleton]
      omega
    simp only [feed, ← hfull]
    by_cases hrest : r.context.remaining = 0
    · simp only [hrest, if_true]
      rcases ({ r with backend := b } : Run σ).recycle 1 with ⟨_ | _, r'⟩
      · rfl
      · simp only
        rcases r'.evaluate [t] with ⟨_ | _, r''⟩ <;> rfl
    · simp only [hrest, if_false]
      rcases ({ r with backend := b } : Run σ).evaluate [t] with ⟨_ | _, r'⟩ <;> rfl

/-- **What a step can come to**: sampling fails, or gives a token that ends the text, or the token is fed. -/
theorem step_cases (r : Run σ) :
    (∃ e b, Backend.sample r.backend r.context = (.error e, b) ∧ r.step = (.error (.error e), { r with backend := b })) ∨
    (∃ t b, Backend.sample r.backend r.context = (.ok t, b) ∧ t ∈ Backend.endTokens b ∧
      r.step = (.ok none, { r with backend := b })) ∨
    (∃ t b answer r', Backend.sample r.backend r.context = (.ok t, b) ∧ t ∉ Backend.endTokens b ∧
      ({ r with backend := b } : Run σ).feed [t] = (answer, r') ∧ r.step = (answer.map fun _ => some t, r')) := by
  rw [step_eq]
  rcases Backend.sample r.backend r.context with ⟨e | t, b⟩
  · exact .inl ⟨e, b, rfl, rfl⟩
  · by_cases hend : t ∈ Backend.endTokens b
    · exact .inr (.inl ⟨t, b, rfl, hend, if_pos (List.contains_iff_mem.2 hend)⟩)
    · rcases hfeed : ({ r with backend := b } : Run σ).feed [t] with ⟨answer, r'⟩
      refine .inr (.inr ⟨t, b, answer, r', rfl, hend, hfeed, (if_neg fun h => hend (List.contains_iff_mem.1 h)).trans ?_⟩)
      rw [hfeed]

/-- **A step keeps what evaluating, resetting and sampling keep.** -/
theorem step_upholds {P : σ → Context → Prop} (hP : Backend.Upholds P)
    (hsample : ∀ (b : σ) (c : Context), P b c → P (Backend.sample b c).2 c) {r : Run σ} (h : P r.backend r.context) :
    P r.step.2.backend r.step.2.context := by
  have hsampled := hsample r.backend r.context h
  rcases r.step_cases with ⟨e, b, hb, hstep⟩ | ⟨t, b, hb, -, hstep⟩ | ⟨t, b, answer, r', hb, -, hfeed, hstep⟩
  · rw [hstep]
    rwa [hb] at hsampled
  · rw [hstep]
    rwa [hb] at hsampled
  · rw [hb] at hsampled
    have hfed := feed_upholds hP (r := { r with backend := b }) hsampled [t]
    rw [hstep]
    rwa [hfeed] at hfed

theorem step_stable (hP : Backend.Stable P) {r : Run σ} (h : P r.backend) : P r.step.2.backend :=
  step_upholds hP.steady.upholds (fun b c => hP.sample b c) h

/-! ## Panics -/

end Generation.Run
end CausalLM
