import CausalLM.Proofs.Decoder.Resumption
import CausalLM.Proofs.Generation.Upkeep
/-!
# Proofs.Generation.Likeness — alike engines make alike generations

Two runs are alike when their engines are and their contexts are equal (`Run.Alike`).  One may have dropped more tokens
before, which nothing reads.  Whatever a run does has the same answer on both and leaves them alike (`Run.Same`): a step
does (`Run.Alike.step`), so a call of `next` does (`Alike.next`), so any number of calls does (`Alike.pull`).
-/
namespace CausalLM

open Decoder (Engine SameHistory)

theorem Context.SameSettings.eq {c d d' : Context} (h : c.SameSettings d) (h' : c.SameSettings d')
    (htokens : d.tokens = d'.tokens) (hposition : d.position = d'.position) : d = d' := by
  rw [SameSettings] at h h'
  rw [h, h', htokens, hposition]

namespace Decoder.Engine

variable {a b : Engine}

theorem Alike.endTokens_eq (h : a.Alike b) : a.endTokens = b.endTokens := by
  obtain ⟨s, t, ha, hb, -, -, hmodel, -⟩ := h
  rw [endTokens, endTokens, model?_eq ha, model?_eq hb, hmodel]

theorem Alike.tokenBytes_eq (h : a.Alike b) (t : Token) : a.tokenBytes t = b.tokenBytes t := by
  obtain ⟨s, t', ha, hb, -, -, hmodel, -⟩ := h
  rw [tokenBytes, tokenBytes, model?_eq ha, model?_eq hb, hmodel]

theorem Alike.exists_reset (h : a.Alike b) :
    ∃ a' b', Backend.reset a = (.ok (), a') ∧ Backend.reset b = (.ok (), b') ∧ a'.Alike b' := by
  obtain ⟨-, hreset⟩ := h.reset
  obtain ⟨s, t, ha, hb, -⟩ := h
  rw [reset_eq ha, reset_eq hb] at hreset
  exact ⟨_, _, reset_eq ha, reset_eq hb, hreset⟩

end Decoder.Engine

namespace Generation

/-! ## Runs -/

namespace Run

/-- **Two runs that go on alike**; the first dropped `before` tokens more. -/
structure Alike (before : Nat) (r r' : Run Engine) : Prop where
  backend : r.backend.Alike r'.backend
  context_eq : r.context = r'.context
  recycled_eq : r.recycled = before + r'.recycled

def Same {α : Type} (before : Nat) (x y : α × Run Engine) : Prop :=
  ∃ answer r r', x = (answer, r) ∧ y = (answer, r') ∧ Alike before r r'

variable {before : Nat} {r r' : Run Engine}

theorem Alike.sameHistory (h : Alike before r r') : SameHistory r.context r'.context := by
  rw [h.context_eq]
  exact ⟨rfl, rfl, rfl⟩

theorem Alike.evaluate (h : Alike before r r') (tokens : List Token) :
    Same before (r.evaluate tokens) (r'.evaluate tokens) := by
  obtain ⟨hanswer, hbackend, hhistory⟩ := h.backend.evaluate (k := .machine) h.sameHistory tokens
  have hsettings := Engine.sameSettings_evaluate .machine r.backend r.context tokens
  have hsettings' := Engine.sameSettings_evaluate .machine r'.backend r'.context tokens
  rw [← h.context_eq] at hsettings' hhistory hbackend hanswer
  refine ⟨(r.evaluate tokens).1, (r.evaluate tokens).2, (r'.evaluate tokens).2, rfl, Prod.ext ?_ rfl, ?_⟩
  · rw [Run.evaluate, Run.evaluate, ← h.context_eq]
    exact congrArg (Except.mapError Failure.error) hanswer.symm
  · rw [Run.evaluate, Run.evaluate, ← h.context_eq]
    exact ⟨hbackend, hsettings.eq hsettings' hhistory.tokens_eq hhistory.position_eq, h.recycled_eq⟩

theorem Alike.evaluateAll : ∀ (pieces : List (List Token)) {r r' : Run Engine}, Alike before r r' →
    Same before (r.evaluateAll pieces) (r'.evaluateAll pieces)
  | [], r, r', h => ⟨_, r, r', rfl, rfl, h⟩
  | piece :: rest, r, r', h => by
    obtain ⟨answer, r₁, r₁', hr, hr', halike⟩ := h.evaluate piece
    rw [Run.evaluateAll, Run.evaluateAll, hr, hr']
    cases answer with
    | error e => exact ⟨_, r₁, r₁', rfl, rfl, halike⟩
    | ok => exact Alike.evaluateAll rest halike

/-- **Recycling goes alike where resetting does**: both runs are left as they are with one failure, or made alike. -/
theorem recycle_of_reset (hcontext : r.context = r'.context) (hrecycled : r.recycled = before + r'.recycled)
    {b b' : Engine} (hb : Backend.reset r.backend = (.ok (), b)) (hb' : Backend.reset r'.backend = (.ok (), b'))
    (halike : b.Alike b') (incoming : Nat) :
    (∃ err, r.recycle incoming = (.error err, r) ∧ r'.recycle incoming = (.error err, r')) ∨
    Same before (r.recycle incoming) (r'.recycle incoming) := by
  unfold recycle
  simp only [← hcontext, hb, hb']
  cases r.context.erase with
  | none => exact .inl ⟨_, rfl, rfl⟩
  | some fraction =>
    simp only
    by_cases hlong : r.context.capacity < incoming
    · simp only [hlong, if_true]
      exact .inl ⟨_, rfl, rfl⟩
    by_cases hlack : r.context.tokens.length < dropCount r.context fraction incoming
    · simp only [hlong, hlack, if_false, if_true]
      exact .inl ⟨_, rfl, rfl⟩
    · simp only [hlong, hlack, if_false]
      have hreset : Alike before ⟨b, r.context.clear, r.recycled⟩ ⟨b', r.context.clear, r'.recycled⟩ :=
        ⟨halike, rfl, hrecycled⟩
      obtain ⟨answer, r₁, r₁', hr, hr', hrest⟩ := hreset.evaluateAll
        (chunks (max r.context.batch 1) (r.context.tokens.drop (dropCount r.context fraction incoming)))
      rw [hr, hr']
      cases answer with
      | error e => exact .inr ⟨_, r₁, r₁', rfl, rfl, hrest⟩
      | ok =>
        refine .inr ⟨_, _, _, rfl, rfl, hrest.backend, hrest.context_eq, ?_⟩
        simp only [hrest.recycled_eq, Nat.add_assoc]

theorem Alike.recycle (h : Alike before r r') (incoming : Nat) :
    Same before (r.recycle incoming) (r'.recycle incoming) := by
  obtain ⟨b, b', hb, hb', halike⟩ := h.backend.exists_reset
  rcases recycle_of_reset h.context_eq h.recycled_eq hb hb' halike incoming with ⟨err, hr, hr'⟩ | hsame
  · exact ⟨_, r, r', hr, hr', h⟩
  · exact hsame

theorem Alike.feed (h : Alike before r r') (tokens : List Token) :
    Same before (r.feed tokens) (r'.feed tokens) := by
  unfold Run.feed
  rw [← h.context_eq]
  split
  · obtain ⟨answer, r₁, r₁', hr, hr', halike⟩ := h.recycle tokens.length
    rw [hr, hr']
    cases answer with
    | error e => exact ⟨_, r₁, r₁', rfl, rfl, halike⟩
    | ok => exact halike.evaluate tokens
  · exact h.evaluate tokens

theorem Alike.feedAll : ∀ (pieces : List (List Token)) {r r' : Run Engine}, Alike before r r' →
    Same before (r.feedAll pieces) (r'.feedAll pieces)
  | [], r, r', h => ⟨_, r, r', rfl, rfl, h⟩
  | piece :: rest, r, r', h => by
    obtain ⟨answer, r₁, r₁', hr, hr', halike⟩ := h.feed piece
    rw [Run.feedAll, Run.feedAll, hr, hr']
    cases answer with
    | error e => exact ⟨_, r₁, r₁', rfl, rfl, halike⟩
    | ok => exact Alike.feedAll rest halike

/-- **A step is the same on alike runs**, and they stay alike. -/
theorem Alike.step (h : Alike before r r') : Same before r.step r'.step := by
  obtain ⟨hanswer, halike⟩ := h.backend.sample h.sameHistory
  have hs : Backend.sample r.backend r.context = r.backend.sample r.context := rfl
  have hs' : Backend.sample r'.backend r'.context = r'.backend.sample r'.context := rfl
  rw [step_eq, step_eq, hs, hs']
  rcases hb : r.backend.sample r.context with ⟨answer, b⟩
  rcases hb' : r'.backend.sample r'.context with ⟨answer', b'⟩
  rw [hb, hb'] at hanswer halike
  cases hanswer
  have hrun : Alike before { r with backend := b } { r' with backend := b' } := ⟨halike, h.context_eq, h.recycled_eq⟩
  cases answer with
  | error e => exact ⟨_, _, _, rfl, rfl, hrun⟩
  | ok t =>
    have hends : Backend.endTokens b = Backend.endTokens b' := halike.endTokens_eq
    obtain ⟨fed, r₁, r₁', hr, hr', hfed⟩ := hrun.feed [t]
    simp only [← hends, hr, hr']
    split
    · exact ⟨_, _, _, rfl, rfl, hrun⟩
    · exact ⟨_, r₁, r₁', rfl, rfl, hfed⟩

end Run

/-! ## Generations -/

/-- **Two generations that go on alike**: they differ in their runs alone, and these are alike. -/
structure Alike (g g' : Generation Engine) : Prop where
  run : Run.Alike 0 g.run g'.run
  rest : g' = { g with run := g'.run }

variable {g g' : Generation Engine}

theorem alike_finish {r r' : Run Engine} (h : Run.Alike 0 r r') (g : Generation Engine) (reason : StopReason) :
    ({ g with run := r }.finish reason).1 = ({ g with run := r' }.finish reason).1 ∧
      Alike ({ g with run := r }.finish reason).2 ({ g with run := r' }.finish reason).2 := by
  unfold Generation.finish
  by_cases hheld : g.held.isEmpty = true
  · simp only [hheld, if_true]
    exact ⟨trivial, h, rfl⟩
  · simp only [hheld]
    exact ⟨rfl, h, rfl⟩

theorem alike_fail {r r' : Run Engine} (h : Run.Alike 0 r r') (g : Generation Engine) (e : Failure) :
    ({ g with run := r }.fail e).1 = ({ g with run := r' }.fail e).1 ∧
      Alike ({ g with run := r }.fail e).2 ({ g with run := r' }.fail e).2 := by
  cases e with
  | error e => exact ⟨rfl, h, rfl⟩
  | panic => exact ⟨rfl, h, rfl⟩

theorem alike_accept {r r' : Run Engine} (h : Run.Alike 0 r r') (g : Generation Engine) (t : Token) :
    ({ g with run := r }.accept t).1 = ({ g with run := r' }.accept t).1 ∧
      Alike ({ g with run := r }.accept t).2 ({ g with run := r' }.accept t).2 := by
  have hbytes : Backend.tokenBytes r.backend t = Backend.tokenBytes r'.backend t := h.backend.tokenBytes_eq t
  unfold Generation.accept
  simp only [hbytes]
  exact ⟨trivial, h, rfl⟩

/-- **A call of `next` is the same on alike generations**, and they stay alike. -/
theorem Alike.next (h : Alike g g') : g.next.1 = g'.next.1 ∧ Alike g.next.2 g'.next.2 := by
  obtain ⟨hrun, hrest⟩ := h
  generalize g'.run = r' at hrun hrest
  subst hrest
  fun_induction Generation.next g generalizing r' with
  | case1 g hd =>
    rw [next_of_isDone (g := { g with run := r' }) hd]
    exact ⟨rfl, hrun, rfl⟩
  | case2 g hd hbudget =>
    have hremaining : g.run.context.remaining = r'.context.remaining := by rw [hrun.context_eq]
    rw [next_of_spent (g := { g with run := r' }) hd hbudget, hremaining]
    exact alike_finish hrun g _
  | case3 g hd hbudget e run hstep =>
    obtain ⟨answer, r₁, r₁', hr, hr', halike⟩ := hrun.step
    rw [hstep] at hr
    cases hr
    rw [next_of_going (g := { g with run := r' }) hd hbudget, hr']
    exact alike_fail halike g e
  | case4 g hd hbudget run hstep =>
    obtain ⟨answer, r₁, r₁', hr, hr', halike⟩ := hrun.step
    rw [hstep] at hr
    cases hr
    rw [next_of_going (g := { g with run := r' }) hd hbudget, hr']
    exact alike_finish halike g _
  | case5 g hd hbudget t run hstep taken htext ih =>
    obtain ⟨answer, r₁, r₁', hr, hr', halike⟩ := hrun.step
    rw [hstep] at hr
    cases hr
    obtain ⟨htaken, hrun', hrest⟩ := alike_accept halike g t
    have htext' : ({ g with run := r₁' }.accept t).1.isEmpty = true := htaken ▸ htext
    rw [next_of_going (g := { g with run := r' }) hd hbudget, hr']
    simp only [htext', if_true]
    rw [hrest]
    exact ih _ hrun'
  | case6 g hd hbudget t run hstep taken htext =>
    obtain ⟨answer, r₁, r₁', hr, hr', halike⟩ := hrun.step
    rw [hstep] at hr
    cases hr
    obtain ⟨htaken, haccept⟩ := alike_accept halike g t
    have htext' : ¬({ g with run := r₁' }.accept t).1.isEmpty = true := htaken ▸ htext
    rw [next_of_going (g := { g with run := r' }) hd hbudget, hr']
    simp only [htext']
    exact ⟨by rw [← htaken]; rfl, haccept⟩

theorem Alike.pull : ∀ (n : Nat) {g g' : Generation Engine}, Alike g g' →
    (pull n g).1 = (pull n g').1 ∧ Alike (pull n g).2 (pull n g').2
  | 0, _, _, h => ⟨rfl, h⟩
  | n + 1, g, g', h => by
    obtain ⟨hitem, hnext⟩ := h.next
    obtain ⟨hitems, hrest⟩ := Alike.pull n hnext
    exact ⟨congrArg₂ List.cons hitem hitems, hrest⟩

end Generation
end CausalLM
