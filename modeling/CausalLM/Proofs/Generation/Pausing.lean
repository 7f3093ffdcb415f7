import CausalLM.Proofs.Decoder.Refinement
import CausalLM.Proofs.Generation.Likeness
import CausalLM.Proofs.Tokenizer.RoundTrip
/-!
# Proofs.Generation.Pausing — a generation that is cut and taken up again

The tokens a generation is yet to give are decided by its run alone (`Run.drive`), so alike runs are about to give the
same (`Run.Alike.drive`), and what was generated with what is to come is the same at every point (`future_pull`).  Capturing
the engine and resuming another one makes a run alike the one that was cut, with as much of the budget as is left.  So the
tokens are those of the generation that was never cut.  The bytes of a character that was under way are not: they are held
by the generation, not by the engine, and the one that goes on does not have them (`resumed_pull`).
-/
namespace CausalLM

open Decoder (Engine Session Model)

namespace Generation

/-! ## What is to come -/

/-- The tokens of up to `n` steps, up to the first that ends the text or fails. -/
def Run.drive {σ : Type} [Backend σ] : Nat → Run σ → List Token
  | 0, _ => []
  | n + 1, r => match r.step with
    | (.ok (some t), r) => t :: drive n r
    | _ => []

theorem Run.Alike.drive {before : Nat} : ∀ (n : Nat) {r r' : Run Engine}, Run.Alike before r r' →
    r.drive n = r'.drive n
  | 0, _, _, _ => rfl
  | n + 1, r, r', h => by
    obtain ⟨answer, r₁, r₁', hr, hr', halike⟩ := h.step
    rw [Run.drive, Run.drive, hr, hr']
    match answer with
    | .error e => rfl
    | .ok none => rfl
    | .ok (some t) => exact congrArg (t :: ·) (Alike.drive n halike)

section

variable {σ : Type} [Backend σ] {g : Generation σ}

/-- **The tokens a generation is yet to give.** -/
def future (g : Generation σ) : List Token := if g.isDone then [] else g.run.drive (g.budget - g.count)

theorem future_of_isDone (hd : g.isDone = true) : g.future = [] := if_pos hd

theorem future_of_going (hd : ¬g.isDone = true) : g.future = g.run.drive (g.budget - g.count) := if_neg hd

theorem future_finish (g : Generation σ) (reason : StopReason) : (g.finish reason).2.future = [] :=
  future_of_isDone (isDone_finish g reason)

theorem future_accept (hd : ¬g.isDone = true) (hbudget : ¬g.budget ≤ g.count) {t : Token} {run : Run σ}
    (hstep : g.run.step = (.ok (some t), run)) :
    g.future = t :: ({ g with run }.accept t).2.future := by
  have hrest : g.budget - g.count = (g.budget - (g.count + 1)) + 1 := by omega
  have hlater : ({ g with run }.accept t).2.future = run.drive (g.budget - (g.count + 1)) := future_of_going hd
  rw [future_of_going hd, hrest, Run.drive, hstep, hlater]

theorem future_of_end (hd : ¬g.isDone = true) (hbudget : ¬g.budget ≤ g.count) {answer : Except Failure (Option Token)}
    {run : Run σ} (hstep : g.run.step = (answer, run)) (hend : ∀ t, answer ≠ .ok (some t)) : g.future = [] := by
  have hrest : g.budget - g.count = (g.budget - (g.count + 1)) + 1 := by omega
  rw [future_of_going hd, hrest, Run.drive, hstep]
  match answer, hend with
  | .error e, _ => rfl
  | .ok none, _ => rfl
  | .ok (some t), hend => exact absurd rfl (hend t)

theorem future_fail (g : Generation σ) (e : Error) : (g.fail (.error e)).2.future = [] := future_of_isDone rfl

/-- **A call of `next` that comes back moves tokens from what is to come to what was generated.** -/
theorem future_next (g : Generation σ) (hok : g.next.1 ≠ some (.error .panic)) :
    g.next.2.generated ++ g.next.2.future = g.generated ++ g.future := by
  fun_induction Generation.next g with
  | case1 g hd => rfl
  | case2 g hd hbudget =>
    rw [future_finish, generated_finish, future_of_going hd, Nat.sub_eq_zero_of_le hbudget]
    rfl
  | case3 g hd hbudget e run hstep =>
    cases e with
    | panic => exact absurd rfl hok
    | error e =>
      rw [future_of_end hd hbudget hstep (by simp), future_fail]
      rfl
  | case4 g hd hbudget run hstep =>
    rw [future_finish, generated_finish, future_of_end hd hbudget hstep (by simp)]
  | case5 g hd hbudget t run hstep taken htext ih =>
    rw [ih hok, future_accept hd hbudget hstep]
    exact List.append_assoc g.generated [t] _
  | case6 g hd hbudget t run hstep taken htext =>
    rw [future_accept hd hbudget hstep]
    exact List.append_assoc g.generated [t] _

theorem future_pull : ∀ (n : Nat) (g : Generation σ), Calm (pull n g).1 →
    (pull n g).2.generated ++ (pull n g).2.future = g.generated ++ g.future
  | 0, _, _ => rfl
  | n + 1, g, hcalm => by
    obtain ⟨hok, hcalm⟩ := calm_cons.1 hcalm
    exact (future_pull n g.next.2 hcalm).trans (future_next g hok)

theorem budget_pull : ∀ (n : Nat) (g : Generation σ), (pull n g).2.budget = g.budget
  | 0, _ => rfl
  | n + 1, g => (budget_pull n g.next.2).trans (budget_next g)

/-! ## The text -/

/-- **At its end a generation that did not fail has shown the text of all its tokens.** -/
theorem Started.textOf_of_isDone (hg : Started g)
    (hb : Backend.Stable fun b : σ => Backend.tokenBytes b = Backend.tokenBytes g.run.backend) {n : Nat}
    (hok : ∀ err, some (.error err) ∉ (pull n g).1) (hdone : (pull n g).2.isDone = true) :
    textOf (pull n g).1 =
      Utf8.toStringLossy ((pull n g).2.generated.flatMap (Backend.tokenBytes g.run.backend)) := by
  have h := hg.accounts.pull hb n
  have hheld := held_pull n g (fun hd => absurd hd (by rw [hg.isEmpty.2.2]; decide)) hok hdone
  rw [textOf, Utf8.toStringLossy, h.told, hheld]
  simp

theorem Started.textOf_append (hg : Started g)
    (hb : Backend.Stable fun b : σ => Backend.tokenBytes b = Backend.tokenBytes g.run.backend) {n : Nat}
    (hgoing : (pull n g).2.isDone = false) (more : Bytes) :
    Utf8.toStringLossy ((pull n g).2.generated.flatMap (Backend.tokenBytes g.run.backend) ++ more) =
      textOf (pull n g).1 ++ Utf8.toStringLossy ((pull n g).2.held ++ more) := by
  have h := hg.accounts.pull hb n
  rw [textOf, Utf8.toStringLossy, Utf8.toStringLossy, ← String.ofList_append, h.going hgoing more, List.nil_append]

theorem Started.generated_of_isDone (hg : Started g) {n : Nat} (hcalm : Calm (pull n g).1)
    (hdone : (pull n g).2.isDone = true) : (pull n g).2.generated = g.future := by
  have hall := future_pull n g hcalm
  rwa [future_of_isDone hdone, List.append_nil, hg.isEmpty.1, List.nil_append] at hall

/-- **A generation that is about to give what another one was at a cut** gives its remaining tokens, and reads their bytes
without the ones that were held. -/
theorem Started.textOf_cut {g' : Generation σ} (hg : Started g) (hg' : Started g')
    (hb : Backend.Stable fun b : σ => Backend.tokenBytes b = Backend.tokenBytes g.run.backend)
    (hbytes : Backend.tokenBytes g'.run.backend = Backend.tokenBytes g.run.backend) {k n n' : Nat}
    (hcalm : Calm (pull k g).1) (hgoing : (pull k g).2.isDone = false) (hfuture : g'.future = (pull k g).2.future)
    (hok : ∀ err, some (.error err) ∉ (pull n g).1) (hdone : (pull n g).2.isDone = true)
    (hok' : ∀ err, some (.error err) ∉ (pull n' g').1) (hdone' : (pull n' g').2.isDone = true) :
    let bytes := (pull n' g').2.generated.flatMap (Backend.tokenBytes g.run.backend)
    (pull n g).2.generated = (pull k g).2.generated ++ (pull n' g').2.generated ∧
      textOf (pull n g).1 = textOf (pull k g).1 ++ Utf8.toStringLossy ((pull k g).2.held ++ bytes) ∧
      textOf (pull n' g').1 = Utf8.toStringLossy bytes := by
  have hcut := future_pull k g hcalm
  rw [hg.isEmpty.1, List.nil_append, ← hg.generated_of_isDone (hok .panic) hdone, ← hfuture,
    ← hg'.generated_of_isDone (hok' .panic) hdone'] at hcut
  refine ⟨hcut.symm, ?_, ?_⟩
  · rw [hg.textOf_of_isDone hb hok hdone, ← hcut, List.flatMap_append, hg.textOf_append hb hgoing]
  · rw [hg'.textOf_of_isDone (by rwa [hbytes]) hok' hdone', hbytes]

end

/-! ## Taking up again -/

/-- The options of what is left once so many tokens were generated. -/
def Options.after (o : Options) (n : Nat) : Options := { o with maxTokens := o.maxTokens - n }

section

variable {e : Engine} {s : Session} {c : Context} {o : Options}

variable {m : Model} {held tokens generated : List Token} {r r' : Run Engine}

/-- **What is left of a budget is the budget of what is left.** -/
theorem budget_begin (h : Conserves m o.erase held tokens r) (h' : Conserves m o.erase held (tokens ++ generated) r')
    (n n' : Nat) : (begin r' (o.after generated.length) n').budget = (begin r o n).budget - generated.length := by
  unfold begin Options.after
  simp only [h.erase_eq, h'.erase_eq]
  cases herase : o.erase with
  | some fraction => simp
  | none =>
    have hadd := h.position_add
    have hadd' := h'.position_add
    rw [h.whole herase, Nat.add_zero] at hadd
    rw [h'.whole herase, Nat.add_zero, ← List.append_assoc, List.length_append, ← hadd] at hadd'
    simp only [Option.isSome_none, Bool.false_eq_true, if_false, Context.remaining, h.capacity_eq, h'.capacity_eq]
    omega

theorem budget_begin_le (r : Run Engine) (o : Options) (n : Nat) : (begin r o n).budget ≤ o.maxTokens := by
  unfold begin
  dsimp only
  split
  · exact Nat.le_refl _
  · exact Nat.min_le_left _ _

theorem InLine.tokenBytes_eq (h : InLine m r) : Backend.tokenBytes r.backend = m.tokenizer.tokenBytes := by
  obtain ⟨s, hsession, -, rfl⟩ := h.session
  funext t
  show r.backend.tokenBytes t = _
  rw [Engine.tokenBytes, Engine.model?_eq hsession]
  rfl

theorem InLine.endTokens_eq (h : InLine m r) : Backend.endTokens r.backend = m.endTokens := by
  obtain ⟨s, hsession, -, rfl⟩ := h.session
  show r.backend.endTokens = _
  rw [Engine.endTokens, Engine.model?_eq hsession]
  rfl

/-- **Capturing the engine of a run and resuming another one makes a run alike the one that was cut**, where the context
holds what the engine does and is as the options want it. -/
theorem Run.exists_resumed {a b : Engine} {t : Session} {c : Context} (ha : a.session = some s) (hb : b.session = some t)
    (hs : s.Sound) (ht : t.Sound) (hmodel : s.model = t.model) (htokens : c.tokens = a.evaluated)
    (hposition : c.position = c.tokens.length) (hconfigured : c = configure a c o) (recycled : Nat) (d : Context) :
    ∃ snapshot b' d', Backend.capture a = .ok snapshot ∧ Backend.resume b d snapshot = (.ok (), b', d') ∧
      d'.tokens = b'.evaluated ∧ d'.position = b'.evaluated.length ∧
      Run.Alike recycled ⟨a, c, recycled⟩ ⟨b', configure b' d' o, 0⟩ := by
  obtain ⟨n, b', hrestore, halike⟩ := Decoder.exists_restore ha hb hs ht hmodel []
  rw [List.append_nil] at hrestore
  have hrestore' : Backend.restore b (Snapshot.bytes s.model.shape (a.stateOf s)) = (.ok n, b') := hrestore
  have hevaluated : Backend.evaluated b' = a.evaluated := halike.evaluated_eq.symm
  have hlength : Backend.contextLength b' = Backend.contextLength a := by
    obtain ⟨s₁, t₁, h₁, h₂, -, -, hsame, -⟩ := halike
    show b'.contextLength = a.contextLength
    rw [Engine.contextLength_eq h₁, Engine.contextLength_eq h₂, hsame]
  refine ⟨_, b', { d with capacity := Backend.contextLength b' }.adopt (Backend.evaluated b'),
    Engine.capture_eq ha hs, ?_, rfl, rfl, halike, ?_, rfl⟩
  · rw [Backend.resume, hrestore']
  · rw [hconfigured]
    simp only [configure, Context.adopt, hlength, hevaluated, htokens, hposition]

theorem eq_configure {c d : Context} {b : Engine} (h : (configure e c o).SameSettings d)
    (hlength : Backend.contextLength b = Backend.contextLength e) : d = configure b d o := by
  unfold configure
  rw [hlength]
  exact h

/-- **Between calls the context of a generation is in step with its engine**, and as the options want it. -/
theorem inStep_pull {prompt : String} {g : Generation Engine} (hsession : e.session = some s) (hs : s.Sound)
    (htokens : c.tokens = e.evaluated) (hposition : c.position = c.tokens.length) (hstart : start e c prompt o = .ok g)
    (k : Nat) : (pull k g).2.run.context.tokens = (pull k g).2.run.backend.evaluated ∧
      (pull k g).2.run.context = configure (pull k g).2.run.backend (pull k g).2.run.context o := by
  have hkept := kept_of_start hsession hs (htokens ▸ List.prefix_rfl) hposition hstart
  obtain ⟨-, -, -, r, hfeed, rfl⟩ := (start_eq_ok_iff hsession).1 hstart
  constructor
  · have hkeeps : Backend.Upholds (Engine.Related (· = ·)) := Engine.upholds_related rfl (by
      rintro held _ tokens rfl -
      rw [List.take_length])
    have hfirst : Engine.Related (· = ·) (firstRun e c o).backend (firstRun e c o).context := by
      have hsame := session_firstRun e c o
      refine ⟨fun t ht => ?_, hposition, ?_⟩
      · rw [hsame, hsession] at ht
        cases ht
        exact hs
      · rw [evaluated_firstRun]
        exact htokens
    have hfed := Run.feedAll_upholds hkeeps (chunks o.batch (s.model.tokenizer.encode prompt)) hfirst
    rw [hfeed] at hfed
    exact (pull_upholds hkeeps (fun _ _ h => h.sample) k hfed).tokens
  · have hkeeps := Engine.upholds_settings (configure e c o)
    have hfed := Run.feedAll_upholds hkeeps (chunks o.batch (s.model.tokenizer.encode prompt))
      (r := firstRun e c o) rfl
    rw [hfeed] at hfed
    have hsettings := pull_upholds hkeeps (fun _ _ h => h) k
      (g := begin r o (s.model.tokenizer.encode prompt).length) hfed
    refine eq_configure hsettings ?_
    obtain ⟨t, ht, -, hmodel⟩ := (hkept.pull k).1.run.session
    refine (Engine.contextLength_eq ht).trans ?_
    rw [hmodel]
    exact (Engine.contextLength_eq hsession).symm

/-- **From a cut a generation can be taken up on another engine** over the same model, and it is about to give the tokens
that the one that was cut was about to give. -/
theorem Kept.exists_resume {b : Engine} {t : Session} {p : Generation Engine} {held prompt : List Token} {o : Options}
    (h : Kept m o.erase held prompt p) (hgoing : p.isDone = false) (hb : b.session = some t) (ht : t.Sound)
    (hmodel : m = t.model) (hvalid : o.validate = .ok ()) (htokens : p.run.context.tokens = p.run.backend.evaluated)
    (hconfigured : p.run.context = configure p.run.backend p.run.context o) {r : Run Engine} {n : Nat}
    (hr : Conserves m o.erase held prompt r) (hbudget : p.budget = (begin r o n).budget) (d : Context) :
    ∃ snapshot b' d' g', Backend.capture p.run.backend = .ok snapshot ∧
      Backend.resume b d snapshot = (.ok (), b', d') ∧ resume b' d' (o.after p.generated.length) = .ok g' ∧
      Kept m o.erase d'.tokens [] g' ∧ g'.budget ≤ o.maxTokens ∧ g'.future = p.future := by
  obtain ⟨s, hsession, hs, rfl⟩ := h.run.session
  obtain ⟨snapshot, b', d', hcapture, hresume, htokens', hposition', halike⟩ := Run.exists_resumed
    (o := o.after p.generated.length) hsession hb hs ht hmodel htokens h.run.position_eq hconfigured p.run.recycled d
  obtain ⟨u, t', hu, hsession', -, ht', hmodel', -⟩ := halike.backend
  have hawake : b'.evaluated ≠ [] := by
    have heq : p.run.backend.evaluated = b'.evaluated := halike.backend.evaluated_eq
    rw [← heq]
    exact h.awake
  have hconserves : Conserves t'.model o.erase d'.tokens [] ⟨b', configure b' d' (o.after p.generated.length), 0⟩ :=
    conserves_configure hsession' ht' (htokens' ▸ List.prefix_rfl) (by rw [hposition', htokens'])
  have hu' : p.run.backend.session = some u := hu
  rw [hsession] at hu'
  cases hu'
  rw [← hmodel'] at hconserves
  refine ⟨snapshot, b', d', _, hcapture, hresume, (resume_eq_ok_iff hsession').2 ⟨hvalid, hposition', rfl⟩,
    kept_begin (o := o.after p.generated.length) hconserves hawake, ?_, ?_⟩
  · exact Nat.le_trans (budget_begin_le _ _ _) (Nat.sub_le _ _)
  · -- the budget is read off the context, which is the same
    have hcontext : p.run.context = configure b' d' (o.after p.generated.length) := halike.context_eq
    generalize configure b' d' (o.after p.generated.length) = c' at halike hcontext ⊢
    have hsize : (begin ⟨b', c', 0⟩ (o.after p.generated.length) 0).budget = p.budget - p.count := by
      rw [hbudget, h.tallied.count_eq, ← budget_begin hr h.run n 0]
      unfold begin
      rw [← hcontext]
    have hlater : (begin ⟨b', c', 0⟩ (o.after p.generated.length) 0).future =
        Run.drive (begin ⟨b', c', 0⟩ (o.after p.generated.length) 0).budget ⟨b', c', 0⟩ :=
      future_of_going Bool.false_ne_true
    rw [hlater, hsize, ← halike.drive]
    exact (future_of_going (Bool.eq_false_iff.1 hgoing)).symm

end

/-- **After more calls than tokens are allowed a generation has ended, and well.** -/
theorem Kept.ended {m : Model} {erase : Option Single} {held prompt : List Token} {g : Generation Engine}
    (h : Kept m erase held prompt g) (hg : Started g) {n : Nat} (hn : g.budget < n) :
    (Generation.pull n g).2.isDone = true ∧ ∀ err, some (.error err) ∉ (Generation.pull n g).1 := by
  have hcount := h.tallied.count_eq
  rw [hg.isEmpty.1, List.length_nil] at hcount
  have hok := (h.pull n).2
  exact ⟨isDone_pull (by omega) (by omega) (hok .panic), hok⟩

section

variable {a b : Engine} {s t : Session} {c : Context} {o : Options} {prompt : String} {g : Generation Engine}

theorem exists_resume_of_start (hsession : a.session = some s) (hsession' : b.session = some t) (hs : s.Sound)
    (ht : t.Sound) (hmodel : s.model = t.model) (htokens : c.tokens = a.evaluated)
    (hposition : c.position = c.tokens.length) (hstart : start a c prompt o = .ok g) {k : Nat}
    (hgoing : (pull k g).2.isDone = false) (d : Context) :
    ∃ snapshot b' d' g', Backend.capture (pull k g).2.run.backend = .ok snapshot ∧
      Backend.resume b d snapshot = (.ok (), b', d') ∧
      resume b' d' (o.after (pull k g).2.generated.length) = .ok g' ∧
      Kept s.model o.erase d'.tokens [] g' ∧ g'.future = (pull k g).2.future ∧
      g.budget ≤ o.maxTokens ∧ g'.budget ≤ o.maxTokens := by
  have hkept := kept_of_start hsession hs (htokens ▸ List.prefix_rfl) hposition hstart
  obtain ⟨hinStep, hconfigured⟩ := inStep_pull hsession hs htokens hposition hstart k
  obtain ⟨hvalid, -, -, r₀, -, rfl⟩ := (start_eq_ok_iff hsession).1 hstart
  have hfirst : Conserves s.model o.erase c.tokens (s.model.tokenizer.encode prompt ++ []) r₀ := hkept.run
  rw [List.append_nil] at hfirst
  obtain ⟨snapshot, b', d', g', hcapture, hresume, hresumed, hkept', hle, hfuture⟩ :=
    (hkept.pull k).1.exists_resume hgoing hsession' ht hmodel hvalid hinStep hconfigured hfirst (budget_pull k _) d
  exact ⟨snapshot, b', d', g', hcapture, hresume, hresumed, hkept', hfuture, budget_begin_le _ _ _, hle⟩

/-- **A generation that is cut and taken up again gives the same tokens, and the text that is read without the bytes that
were held.**  Let a generation have started on a reachable engine that its context is in step with, and go on after `k`
calls.  Its engine can be captured, any other engine over the same model resumed from that, and a generation with what is
left of the tokens goes on there.  Both come to their end without a failure, and the tokens of the one that was never cut
are those before the cut and those after it.  Its text reads the bytes that were held at the cut in front of those that
came later; the text after the cut reads the later ones alone.  So the texts are the same exactly if these read the
same, as they do where nothing was held. -/
theorem resumed_pull (ha : Engine.Reachable .machine a) (hb : Engine.Reachable .machine b)
    (hsession : a.session = some s) (hsession' : b.session = some t) (hmodel : s.model = t.model)
    (htokens : c.tokens = a.evaluated) (hposition : c.position = c.tokens.length)
    (hstart : start a c prompt o = .ok g) {k : Nat} (hgoing : (pull k g).2.isDone = false) (d : Context) :
    let (shown, p) := pull k g
    ∃ snapshot b' d' g', Backend.capture p.run.backend = .ok snapshot ∧
      Backend.resume b d snapshot = (.ok (), b', d') ∧
      resume b' d' (o.after p.generated.length) = .ok g' ∧
      ∀ n, o.maxTokens < n →
        let (whole, w) := pull n g
        let (rest, r) := pull n g'
        let bytes := r.generated.flatMap s.model.tokenizer.tokenBytes
        w.isDone = true ∧ (∀ err, some (.error err) ∉ whole) ∧ r.isDone = true ∧ (∀ err, some (.error err) ∉ rest) ∧
        w.generated = p.generated ++ r.generated ∧
        textOf whole = textOf shown ++ Utf8.toStringLossy (p.held ++ bytes) ∧
        textOf rest = Utf8.toStringLossy bytes ∧
        (textOf whole = textOf shown ++ textOf rest ↔
          Utf8.toStringLossy (p.held ++ bytes) = Utf8.toStringLossy bytes) := by
  have hs := Engine.sound_of_reachable ha s hsession
  have ht := Engine.sound_of_reachable hb t hsession'
  have hkept := kept_of_start hsession hs (htokens ▸ List.prefix_rfl) hposition hstart
  obtain ⟨snapshot, b', d', g', hcapture, hresume, hresumed, hkept', hfuture, hle, hle'⟩ :=
    exists_resume_of_start hsession hsession' hs ht hmodel htokens hposition hstart hgoing d
  have hstarted : Started g := ⟨a, c, o, .inl ⟨prompt, hstart⟩⟩
  have hstarted' : Started g' := ⟨b', d', _, .inr hresumed⟩
  refine ⟨snapshot, b', d', g', hcapture, hresume, hresumed, fun n hn => ?_⟩
  obtain ⟨hdone, hok⟩ := hkept.ended hstarted (Nat.lt_of_le_of_lt hle hn)
  obtain ⟨hdone', hok'⟩ := hkept'.ended hstarted' (Nat.lt_of_le_of_lt hle' hn)
  have hbytes := hkept.run.toInLine.tokenBytes_eq
  have hbytes' := hkept'.run.toInLine.tokenBytes_eq
  obtain ⟨htokens, hwhole, hrest⟩ := hstarted.textOf_cut hstarted' (Engine.stable_tokenBytes _)
    (hbytes'.trans hbytes.symm) ((hkept.pull k).2 .panic) hgoing hfuture hok hdone hok' hdone'
  rw [hbytes] at hwhole hrest
  refine ⟨hdone, hok, hdone', hok', htokens, hwhole, hrest, ?_⟩
  rw [hwhole, hrest, String.append_right_inj]

end

end Generation

/-! ### A character over two tokens -/

namespace Decoder

open Container

/-- A model of one token, with room for four: the end of a character and the beginning of the next one. -/
def solo : Draft where
  pairs := [
    ("general.architecture", .string "starcoder"),
    ("starcoder.context_length", .word32 4),
    ("starcoder.embedding_length", .word32 1),
    ("starcoder.block_count", .word32 1),
    ("starcoder.attention.head_count", .word32 1),
    ("tokenizer.ggml.tokens", .strings ["Ĥ¬â"])]
  tensors := ones "token_embd.weight" [1, 1] :: ones "position_embd.weight" [1, 4] :: smallest.tensors.drop 2

def soloSizes : Hyperparameters := ⟨"starcoder", 1, 4, 1, 1, 1, 1, 4, Hyperparameters.defaultEpsilon⟩

theorem readable_solo : solo.Readable := by decide +kernel

theorem ofFile_solo : (Model.ofFile "solo" solo.bytes).toOption.map (fun m =>
      (m.hyperparameters, m.tokenizer.vocabulary.tokens, m.tokenizer.tokenBytes (.ofIndex 0))) =
    some (soloSizes, #["Ĥ¬â"], [0x82, 0xac, 0xe2]) := by
  rw [Model.ofFile, Model.readHeader, parse_bytes readable_solo]
  decide +kernel

theorem endTokens_solo {m : Model} (hm : Model.ofFile "solo" solo.bytes = .ok m)
    (htokens : m.tokenizer.vocabulary.tokens = #["Ĥ¬â"]) : m.endTokens = [] := by
  have heos : solo.metadata.uint? "tokenizer.ggml.eos_token_id" = none := by decide +kernel
  obtain ⟨v, hv, -⟩ := (Model.valid_of_ofFile hm).tokenizer
  simp only [Model.ofFile, Model.readHeader, parse_bytes readable_solo, ↓throw_bind, bind_eq_ok_iff, guard_eq_ok_iff] at hm
  obtain ⟨⟨header, h⟩, ⟨header', hheader, -, sizes, -, hpair⟩, tokenizer, -, store, -, weights, -, hm⟩ := hm
  cases hheader
  cases hpair
  cases hm
  have hv' : tokenizer = Tokenizer.ofVocabulary v := hv
  rw [hv'] at htokens
  have hnone : ∀ text, text ≠ "Ĥ¬â" → (Tokenizer.ofVocabulary v).id? text = none := by
    intro text hne
    refine Option.eq_none_iff_forall_ne_some.2 fun t ht => ?_
    have hvocabulary : v.tokens = #["Ĥ¬â"] := htokens
    obtain ⟨i, hi, -⟩ := (Tokenizer.id?_eq_some_iff (by rw [hvocabulary]; decide)).1 ht
    rw [hvocabulary] at hi
    cases i with
    | zero => exact hne (Option.some.inj hi).symm
    | succ i => cases hi
  show Model.findEndTokens solo.metadata tokenizer = []
  simp [Model.findEndTokens, heos, hv', hnone]

def Engine.solo (seed : UInt64) : Engine :=
  ((Engine.new seed 1).load (fun _ => some Decoder.solo.bytes) "solo" 0).2

theorem exists_solo : ∃ m : Model, m.hyperparameters = soloSizes ∧ m.endTokens = [] ∧
    m.tokenizer.tokenBytes (.ofIndex 0) = [0x82, 0xac, 0xe2] ∧ ∀ seed, ∃ v,
      (Engine.solo seed).session = some ⟨m, 0, v⟩ ∧ v.tokens = [] := by
  have hsolo := ofFile_solo
  cases hm : Model.ofFile "solo" solo.bytes with
  | error e =>
    rw [hm] at hsolo
    cases hsolo
  | ok m =>
    rw [hm] at hsolo
    obtain ⟨hsizes, htokens, hbytes⟩ : m.hyperparameters = soloSizes ∧ m.tokenizer.vocabulary.tokens = #["Ĥ¬â"] ∧
        m.tokenizer.tokenBytes (.ofIndex 0) = [0x82, 0xac, 0xe2] := by
      simpa [Except.toOption] using hsolo
    obtain ⟨v, hv⟩ : ∃ v, Evaluation.new m.hyperparameters = .ok v := by
      rw [hsizes]
      exact ⟨_, rfl⟩
    refine ⟨m, hsizes, endTokens_solo hm htokens, hbytes, fun seed => ⟨v, ?_, Engine.tokens_new hv⟩⟩
    rw [Engine.solo, load_eq hm hv]
    rfl

end Decoder

theorem eq_ofIndex_of_isBelow_one {t : Token} (h : t.isBelow 1 = true) : t = .ofIndex 0 := by
  unfold Token.isBelow at h
  simp only [Bool.and_eq_true, decide_eq_true_eq] at h
  have hzero : t.toInt = (Token.ofIndex 0).toInt := by
    show t.toInt = 0
    omega
  cases t
  exact congrArg Token.mk (Int32.toInt_inj.1 hzero)

namespace Generation

section

variable {m : Model} {erase : Option Single} {held tokens : List Token} {g : Generation Engine}

theorem Kept.step_of_one (h : Kept m erase held tokens g) (hvocab : m.hyperparameters.vocab = 1)
    (hends : m.endTokens = []) (hbudget : g.count < g.budget) : ∃ r, g.run.step = (.ok (some (.ofIndex 0)), r) := by
  obtain ⟨t, ht, hbelow⟩ := h.exists_sample
  rw [hvocab] at hbelow
  rw [eq_ofIndex_of_isBelow_one hbelow] at ht
  rcases g.run.step_cases with ⟨e, b, hb, -⟩ | ⟨u, b, hb, hend, -⟩ | ⟨u, b, answer, r, hb, -, -, hstep⟩
  · rw [hb] at ht
    cases ht
  · have hsession : b.session = g.run.backend.session := by
      have hsame := Engine.session_sample g.run.backend g.run.context
      have hb' : g.run.backend.sample g.run.context = (.ok u, b) := hb
      rwa [hb'] at hsame
    have hnone : Backend.endTokens b = [] := (h.run.of_session_eq hsession).toInLine.endTokens_eq.trans hends
    rw [hnone] at hend
    cases hend
  · rw [hb] at ht
    cases ht
    obtain ⟨given, hgiven, -⟩ := h.step hbudget hstep
    cases answer with
    | error e => cases hgiven
    | ok => exact ⟨r, hstep⟩

theorem Kept.future_of_one (hvocab : m.hyperparameters.vocab = 1) (hends : m.endTokens = []) :
    ∀ (n : Nat) {g : Generation Engine}, Kept m erase held tokens g → ¬g.isDone = true → g.budget - g.count = n →
      g.future = List.replicate n (.ofIndex 0)
  | 0, g, _, hd, hn => by
    rw [future_of_going hd, hn]
    rfl
  | n + 1, g, h, hd, hn => by
    obtain ⟨r, hstep⟩ := h.step_of_one hvocab hends (by omega)
    have hrest := Kept.future_of_one hvocab hends n (h.accept (by omega) hstep) hd (by
      show g.budget - (g.count + 1) = n
      omega)
    rw [future_accept hd (by omega) hstep, hrest]
    rfl

end

/-- A context of the model of one token that holds it once. -/
def soloHeld : Context := { Context.new 4 with tokens := [.ofIndex 0], position := 1 }

def three : Options := { Options.default with maxTokens := 3 }

/-- An engine of the model of one token that evaluated it starts from there without a prompt. -/
theorem exists_start_solo {m : Model} {v : Decoder.Evaluation} (hsizes : m.hyperparameters = Decoder.soloSizes)
    (hsession : (Engine.solo 1).session = some ⟨m, 0, v⟩) (htokens : v.tokens = []) :
    ∃ (a : Engine) (v' : Decoder.Evaluation),
    Engine.Reachable .machine a ∧ a.session = some ⟨m, 0, v'⟩ ∧ a.evaluated = soloHeld.tokens ∧
    ∀ o : Options, o.validate = .ok () → start a soloHeld "" o = .ok (begin (firstRun a soloHeld o) o 0) := by
  have hreach : Engine.Reachable .machine (Engine.solo 1) := .load (.new 1 1) _ _ _
  have hs := Engine.sound_of_reachable hreach _ hsession
  obtain ⟨v', hv', heq⟩ := Engine.exists_evaluate (k := .machine) hsession hs (c := Context.new 4)
    (List.cons_ne_nil (.ofIndex 0) []) (Nat.zero_le _) (by rw [hsizes]; decide) (by rw [hsizes]; decide)
  have hra : Engine.Reachable .machine ((Engine.solo 1).evaluate .machine (Context.new 4) [.ofIndex 0]).2.1 :=
    .evaluate hreach _ _
  have ha : ((Engine.solo 1).evaluate .machine (Context.new 4) [.ofIndex 0]).2.1.session = some ⟨m, 0, v'⟩ := by
    rw [heq]
    exact Engine.session_of_loaded_eq hsession rfl rfl
  generalize ((Engine.solo 1).evaluate .machine (Context.new 4) [.ofIndex 0]).2.1 = a at hra ha
  have hevaluated : a.evaluated = soloHeld.tokens := by
    rw [Engine.evaluated_eq ha, hv'.tokens_eq, htokens]
    rfl
  refine ⟨a, v', hra, ha, hevaluated, fun o hvalid => ?_⟩
  refine (start_eq_ok_iff ha).2 ⟨hvalid, fun h => absurd h.2 (by decide), ?_, firstRun a soloHeld o, ?_, ?_⟩
  · rw [encode_empty hs.model, hsizes]
    exact fun h => absurd h.1 (by decide)
  · rw [encode_empty hs.model, chunks]
    rfl
  · rw [encode_empty hs.model]
    rfl

/-- **A generation that is cut within a character.**  After the first call it has given one token, shown two broken
characters and holds the beginning of a third; two more tokens are to come. -/
theorem exists_cut_solo : ∃ (m : Model) (a b : Engine) (s t : Session) (g : Generation Engine),
    Engine.Reachable .machine a ∧ Engine.Reachable .machine b ∧ a.session = some s ∧ b.session = some t ∧
    s.model = m ∧ t.model = m ∧ m.tokenizer.tokenBytes (.ofIndex 0) = [0x82, 0xac, 0xe2] ∧
    a.evaluated = soloHeld.tokens ∧ start a soloHeld "" three = .ok g ∧
    (pull 1 g).2.isDone = false ∧ (pull 1 g).2.generated = [.ofIndex 0] ∧ (pull 1 g).2.held = [0xe2] ∧
    textOf (pull 1 g).1 = "\uFFFD\uFFFD" ∧ (pull 1 g).2.future = [.ofIndex 0, .ofIndex 0] := by
  obtain ⟨m, hsizes, hends, hbytes, hsolo⟩ := Decoder.exists_solo
  obtain ⟨v, hsession, htokens⟩ := hsolo 1
  obtain ⟨w, hsession', -⟩ := hsolo 2
  obtain ⟨a, v', hra, ha, hevaluated, hstarts⟩ := exists_start_solo hsizes hsession htokens
  have hstart := hstarts three rfl
  have hkept := kept_of_start ha (Engine.sound_of_reachable hra _ ha) (hevaluated ▸ List.prefix_rfl) rfl hstart
  have hbudget : (begin (firstRun a soloHeld three) three 0).budget = 3 := by
    have hcapacity : Backend.contextLength a = 4 := (Engine.contextLength_eq ha).trans (by rw [hsizes]; rfl)
    show min 3 (Backend.contextLength a - 1) = 3
    rw [hcapacity]
    rfl
  refine ⟨m, a, Engine.solo 2, _, _, _, hra, .load (.new 2 1) _ _ _, ha, hsession', rfl, rfl, hbytes, hevaluated,
    hstart, ?_⟩
  have hvocab : m.hyperparameters.vocab = 1 := by rw [hsizes]; rfl
  have hgoing : ¬(begin (firstRun a soloHeld three) three 0).isDone = true := Bool.false_ne_true
  have hspent : (begin (firstRun a soloHeld three) three 0).count < (begin (firstRun a soloHeld three) three 0).budget := by
    rw [hbudget]
    exact Nat.zero_lt_succ 2
  obtain ⟨r, hstep⟩ := hkept.step_of_one hvocab hends hspent
  have htaken := hkept.accept hspent hstep
  have hbytes' : Backend.tokenBytes r.backend (.ofIndex 0) = [0x82, 0xac, 0xe2] :=
    (congrFun htaken.run.toInLine.tokenBytes_eq _).trans hbytes
  have haccept : ({ begin (firstRun a soloHeld three) three 0 with run := r }.accept (.ofIndex 0)).1 =
        ['\uFFFD', '\uFFFD'] ∧
      ({ begin (firstRun a soloHeld three) three 0 with run := r }.accept (.ofIndex 0)).2.held = [0xe2] := by
    have hdrain : Utf8.drain ([] ++ [0x82, 0xac, 0xe2]) = (['\uFFFD', '\uFFFD'], [0xe2]) := by decide +kernel
    unfold Generation.accept
    simp only [hbytes']
    exact ⟨congrArg Prod.fst hdrain, congrArg Prod.snd hdrain⟩
  have hpull : pull 1 (begin (firstRun a soloHeld three) three 0) = ([some (.ok "\uFFFD\uFFFD")],
      ({ begin (firstRun a soloHeld three) three 0 with run := r }.accept (.ofIndex 0)).2) := by
    rw [Generation.pull, next_of_going hgoing (Nat.not_le.2 hspent), hstep]
    simp only [haccept.1]
    rfl
  have hfuture := htaken.future_of_one hvocab hends 2 hgoing (by
    show (begin (firstRun a soloHeld three) three 0).budget - 1 = 2
    rw [hbudget])
  have htext : textOf [some (.ok "\uFFFD\uFFFD")] = "\uFFFD\uFFFD" := by decide
  rw [hpull]
  exact ⟨rfl, rfl, haccept.2, htext, hfuture⟩

theorem resumed_pull_solo : ∃ (a b b' : Engine) (d' : Context) (g g' : Generation Engine) (snapshot : Bytes),
    start a soloHeld "" three = .ok g ∧ Backend.capture (pull 1 g).2.run.backend = .ok snapshot ∧
    Backend.resume b (Context.new 4) snapshot = (.ok (), b', d') ∧ resume b' d' (three.after 1) = .ok g' ∧
    (pull 4 g).2.isDone = true ∧ (pull 4 g').2.isDone = true ∧
    (pull 4 g).2.generated = .ofIndex 0 :: (pull 4 g').2.generated := by
  obtain ⟨m, a, b, s, t, g, ha, hb, hsession, hsession', hs, ht, -, hevaluated, hstart, hgoing, hgenerated, -⟩ :=
    exists_cut_solo
  obtain ⟨snapshot, b', d', g', hcapture, hresume, hresumed, hruns⟩ := resumed_pull ha hb hsession hsession'
    (hs.trans ht.symm) hevaluated.symm rfl hstart hgoing (Context.new 4)
  obtain ⟨hdone, -, hdone', -, htokens, -⟩ := hruns 4 (by decide)
  have hone : g.next.2.generated = [.ofIndex 0] := hgenerated
  rw [hone] at hresumed htokens
  exact ⟨a, b, b', d', g, g', snapshot, hstart, hcapture, hresume, hresumed, hdone, hdone', htokens⟩

/-- **The text of a generation that is cut within a character is another one.**  Going on gives two broken characters for
the one that was cut. -/
theorem textOf_cut_solo : ∃ (a b b' : Engine) (s t : Session) (d' : Context) (g g' : Generation Engine) (snapshot : Bytes),
    Engine.Reachable .machine a ∧ Engine.Reachable .machine b ∧ a.session = some s ∧ b.session = some t ∧
    s.model = t.model ∧ soloHeld.tokens = a.evaluated ∧ soloHeld.position = soloHeld.tokens.length ∧
    start a soloHeld "" three = .ok g ∧ (pull 1 g).2.isDone = false ∧
    Backend.capture (pull 1 g).2.run.backend = .ok snapshot ∧
    Backend.resume b (Context.new 4) snapshot = (.ok (), b', d') ∧
    resume b' d' (three.after (pull 1 g).2.generated.length) = .ok g' ∧
    (pull 4 g).2.isDone = true ∧ (pull 4 g').2.isDone = true ∧
    textOf (pull 4 g).1 = "\uFFFD\uFFFD€€\uFFFD" ∧
    textOf (pull 1 g).1 ++ textOf (pull 4 g').1 = "\uFFFD\uFFFD\uFFFD\uFFFD€\uFFFD" := by
  obtain ⟨m, a, b, s, t, g, ha, hb, hsession, hsession', rfl, ht, hbytes, hevaluated, hstart, hgoing, hgenerated, hheld,
    htext, hfuture⟩ := exists_cut_solo
  have hs := Engine.sound_of_reachable ha s hsession
  obtain ⟨snapshot, b', d', g', hcapture, hresume, hresumed, hkept', hfuture', hle, hle'⟩ :=
    exists_resume_of_start hsession hsession' hs (Engine.sound_of_reachable hb t hsession') ht.symm hevaluated.symm rfl
      hstart hgoing (Context.new 4)
  have hkept := kept_of_start hsession hs (hevaluated ▸ List.prefix_rfl) rfl hstart
  have hstarted : Started g := ⟨a, soloHeld, three, .inl ⟨"", hstart⟩⟩
  have hstarted' : Started g' := ⟨b', d', _, .inr hresumed⟩
  obtain ⟨hdone, hok⟩ := hkept.ended (n := 4) hstarted (Nat.lt_of_le_of_lt hle (by decide))
  obtain ⟨hdone', hok'⟩ := hkept'.ended (n := 4) hstarted' (Nat.lt_of_le_of_lt hle' (by decide))
  have hmodelBytes := hkept.run.toInLine.tokenBytes_eq
  obtain ⟨-, hwhole, hrest⟩ := hstarted.textOf_cut hstarted' (Engine.stable_tokenBytes _)
    (hkept'.run.toInLine.tokenBytes_eq.trans hmodelBytes.symm) ((hkept.pull 1).2 .panic) hgoing hfuture' hok hdone hok' hdone'
  have hlater : (pull 4 g').2.generated.flatMap (Backend.tokenBytes g.run.backend) =
      [0x82, 0xac, 0xe2, 0x82, 0xac, 0xe2] := by
    rw [hstarted'.generated_of_isDone (hok' .panic) hdone', hfuture', hfuture, hmodelBytes]
    simp [hbytes]
  rw [hlater, htext, hheld] at hwhole
  rw [hlater] at hrest
  refine ⟨a, b, b', s, t, d', g, g', snapshot, ha, hb, hsession, hsession', ht.symm, hevaluated.symm, rfl, hstart, hgoing,
    hcapture, hresume, hresumed, hdone, hdone', ?_, ?_⟩
  · rw [hwhole]
    decide +kernel
  · rw [htext, hrest]
    decide +kernel

end Generation
end CausalLM
