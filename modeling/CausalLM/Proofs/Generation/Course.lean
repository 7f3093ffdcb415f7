import CausalLM.Proofs.Generation.Fragments
/-!
# Proofs.Generation.Course — a generation comes to an end and stays there

The figures of a generation agree at every point: as many tokens are counted as there are, and there is a reason to stop
exactly if nothing comes any more (`Tallied`).  Whatever the backend answers, a call of `next` that does not end the
generation has added a token to it (`count_lt_next`), and never are more added than the budget allows.  So after more
calls than that the generation has ended (`isDone_pull`), and from then on nothing comes (`pull_of_isDone`).

This is so of calls that come back.  One that panics leaves the generation as it was before the token it drew, and it
does so only where making room would drop more tokens than there are (`overdraws_of_next`).
-/
namespace CausalLM.Generation

variable {σ : Type}

/-! ## Stopping -/

theorem run_finish (g : Generation σ) (reason : StopReason) : (g.finish reason).2.run = g.run := by
  unfold finish
  split <;> rfl

theorem budget_finish (g : Generation σ) (reason : StopReason) : (g.finish reason).2.budget = g.budget := by
  unfold finish
  split <;> rfl

theorem count_finish (g : Generation σ) (reason : StopReason) : (g.finish reason).2.count = g.count := by
  unfold finish
  split <;> rfl

theorem generated_finish (g : Generation σ) (reason : StopReason) : (g.finish reason).2.generated = g.generated := by
  unfold finish
  split <;> rfl

theorem isDone_finish (g : Generation σ) (reason : StopReason) : (g.finish reason).2.isDone = true := by
  unfold finish
  split <;> rfl

theorem ok_finish (g : Generation σ) (reason : StopReason) (err : Failure) : (g.finish reason).1 ≠ some (.error err) := by
  unfold finish
  split
  · simp
  · simp

theorem run_fail (g : Generation σ) (e : Failure) : (g.fail e).2.run = g.run := by
  cases e <;> rfl

theorem budget_fail (g : Generation σ) (e : Failure) : (g.fail e).2.budget = g.budget := by
  cases e <;> rfl

theorem count_fail (g : Generation σ) (e : Failure) : (g.fail e).2.count = g.count := by
  cases e <;> rfl

theorem generated_fail (g : Generation σ) (e : Failure) : (g.fail e).2.generated = g.generated := by
  cases e <;> rfl

/-- **The figures of a generation agree** with what they count. -/
structure Tallied (g : Generation σ) : Prop where
  count_eq : g.count = g.generated.length
  done_eq : g.isDone = g.stop.isSome

theorem Tallied.step {g : Generation σ} (h : Tallied g) (run : Run σ) : Tallied { g with run } := ⟨h.count_eq, h.done_eq⟩

theorem Tallied.finish {g : Generation σ} (h : Tallied g) (reason : StopReason) : Tallied (g.finish reason).2 := by
  unfold Generation.finish
  split
  · exact ⟨h.count_eq, rfl⟩
  · exact ⟨h.count_eq, rfl⟩

theorem Tallied.fail {g : Generation σ} (h : Tallied g) : ∀ e : Failure, Tallied (g.fail e).2
  | .error _ => ⟨h.count_eq, rfl⟩
  | .panic => h

section

variable [Backend σ] {g : Generation σ}

/-! ## One call -/

theorem next_of_isDone (h : g.isDone = true) : g.next = (none, g) := by
  rw [next, if_pos h]

theorem next_of_spent (hd : ¬g.isDone = true) (hbudget : g.budget ≤ g.count) :
    g.next = g.finish (if g.run.context.remaining = 0 then .contextFull else .maxTokens) := by
  rw [next, if_neg hd, if_pos hbudget]

theorem next_of_going (hd : ¬g.isDone = true) (hbudget : ¬g.budget ≤ g.count) :
    g.next = match g.run.step with
      | (.error e, run) => { g with run }.fail e
      | (.ok none, run) => { g with run }.finish .endToken
      | (.ok (some t), run) =>
        let taken := { g with run }.accept t
        if taken.1.isEmpty then taken.2.next else (some (.ok (String.ofList taken.1)), taken.2) := by
  rw [next]
  exact (if_neg hd).trans (if_neg hbudget)

omit [Backend σ] in
theorem tallied_begin (r : Run σ) (o : Options) (promptTokens : Nat) : Tallied (begin r o promptTokens) := ⟨rfl, rfl⟩

theorem Tallied.accept (h : Tallied g) (t : Token) : Tallied (g.accept t).2 := by
  refine ⟨?_, h.done_eq⟩
  show g.count + 1 = (g.generated ++ [t]).length
  rw [h.count_eq, List.length_append, List.length_singleton]

theorem Tallied.next (h : Tallied g) : Tallied g.next.2 := by
  fun_induction Generation.next g with
  | case1 g hd => exact h
  | case2 g hd hbudget => exact h.finish _
  | case3 g hd hbudget e run hstep => exact (h.step run).fail e
  | case4 g hd hbudget run hstep => exact (h.step run).finish _
  | case5 g hd hbudget t run hstep taken htext ih => exact ih ((h.step run).accept t)
  | case6 g hd hbudget t run hstep htext => exact (h.step run).accept t

theorem budget_next (g : Generation σ) : g.next.2.budget = g.budget := by
  fun_induction Generation.next g with
  | case1 g hd => rfl
  | case2 g hd hbudget => exact budget_finish g _
  | case3 g hd hbudget e run hstep => exact budget_fail _ e
  | case4 g hd hbudget run hstep => exact budget_finish _ _
  | case5 g hd hbudget t run hstep taken htext ih => exact ih
  | case6 g hd hbudget t run hstep htext => rfl

theorem count_next_le (h : g.count ≤ g.budget) : g.next.2.count ≤ g.budget := by
  fun_induction Generation.next g with
  | case1 g hd => exact h
  | case2 g hd hbudget => rwa [count_finish]
  | case3 g hd hbudget e run hstep => rwa [count_fail]
  | case4 g hd hbudget run hstep => rwa [count_finish]
  | case5 g hd hbudget t run hstep taken htext ih => exact ih (Nat.not_le.1 hbudget)
  | case6 g hd hbudget t run hstep htext => exact Nat.not_le.1 hbudget

/-- **A call after which the generation goes on has added a token**, unless it panicked. -/
theorem count_lt_next (h : g.next.2.isDone = false) (hok : g.next.1 ≠ some (.error .panic)) :
    g.count < g.next.2.count := by
  fun_induction Generation.next g with
  | case1 g hd => rw [hd] at h; cases h
  | case2 g hd hbudget => rw [isDone_finish] at h; cases h
  | case3 g hd hbudget e run hstep =>
    cases e with
    | error e => cases h
    | panic => exact absurd rfl hok
  | case4 g hd hbudget run hstep => rw [isDone_finish] at h; cases h
  | case5 g hd hbudget t run hstep taken htext ih => exact Nat.lt_trans (Nat.lt_succ_self _) (ih h hok)
  | case6 g hd hbudget t run hstep htext => exact Nat.lt_succ_self _

/-- **From an ended generation nothing comes**, and it stays as it is. -/
theorem pull_of_isDone (h : g.isDone = true) : ∀ n, pull n g = (List.replicate n none, g)
  | 0 => rfl
  | n + 1 => by
    rw [pull, next_of_isDone h]
    simp only
    rw [pull_of_isDone h n]
    rfl

theorem Tallied.pull : ∀ (n : Nat) {g : Generation σ}, Tallied g → Tallied (Generation.pull n g).2
  | 0, _, h => h
  | n + 1, _, h => Tallied.pull n h.next

theorem count_pull_le : ∀ (n : Nat) {g : Generation σ}, g.count ≤ g.budget → (pull n g).2.count ≤ g.budget
  | 0, _, h => h
  | n + 1, g, h => by
    have hnext := count_next_le h
    rw [← budget_next g] at hnext
    rw [← budget_next g]
    exact count_pull_le n hnext

theorem isDone_pull_of_next (n : Nat) (h : (pull n g.next.2).2.isDone = false) : g.next.2.isDone = false := by
  refine Bool.eq_false_iff.2 fun hd => ?_
  rw [pull_of_isDone hd] at h
  rw [hd] at h
  cases h

/-- **None of the calls panicked.** -/
def Calm (items : List Item) : Prop := some (.error .panic) ∉ items

theorem calm_cons {item : Item} {items : List Item} :
    Calm (item :: items) ↔ item ≠ some (.error .panic) ∧ Calm items := by
  rw [Calm, Calm, List.mem_cons, not_or, ne_comm]

/-- Calls after which the generation goes on have added a token each. -/
theorem count_add_le_pull : ∀ (n : Nat) {g : Generation σ}, (pull n g).2.isDone = false → Calm (pull n g).1 →
    g.count + n ≤ (pull n g).2.count
  | 0, _, _, _ => Nat.le_refl _
  | n + 1, g, h, hcalm => by
    obtain ⟨hok, hcalm⟩ := calm_cons.1 hcalm
    have hrest : g.next.2.count + n ≤ (pull (n + 1) g).2.count := count_add_le_pull n h hcalm
    have hfirst := count_lt_next (isDone_pull_of_next n h) hok
    omega

/-- **After more calls than tokens are allowed the generation has ended.** -/
theorem isDone_pull (h : g.count ≤ g.budget) {n : Nat} (hn : g.budget < g.count + n) (hcalm : Calm (pull n g).1) :
    (pull n g).2.isDone = true := by
  cases hd : (pull n g).2.isDone with
  | true => rfl
  | false =>
    have hmany := count_add_le_pull n hd hcalm
    have hfew := count_pull_le n h
    omega

end

end CausalLM.Generation
