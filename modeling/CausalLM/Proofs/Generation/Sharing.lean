import CausalLM.Proofs.Decoder.Refinement
import CausalLM.Proofs.Generation.Upkeep
/-!
# Proofs.Generation.Sharing — one engine behind two contexts

Two clients use one engine in turns, each through a context of its own (`Interleaved`).  Engine and context compare
positions, never tokens: a client is served whenever the engine holds enough of them, whoever they came from
(`Genuine.evaluate_cases`, `resume_eq_ok_iff`).  Afterwards the engine holds as many tokens as the context, and exactly
the context's own if these came first before.  That is so of a new context and whatever a client asks for through its own
one keeps it (`Request.keeps_prefix`), so only the other client can end it, and then nobody is told
(`interleaved_requests`).
-/
namespace CausalLM

open Decoder (Engine Model)

namespace Decoder.Engine

variable {k : Kernels} {m : Model} {e : Engine}

/-- Tokens that can go behind a context: the engine is not behind it, they are known, and there is room for them. -/
def Fits (m : Model) (e : Engine) (c : Context) (tokens : List Token) : Prop :=
  c.position ≤ e.evaluated.length ∧ c.position + tokens.length ≤ m.hyperparameters.context ∧
    ∀ t ∈ tokens, t.isBelow m.hyperparameters.vocab = true

/-- **Tokens that fit are evaluated behind the context's position, and others change nothing.** -/
theorem Genuine.evaluate_cases (h : e.Genuine k m) (c : Context) {tokens : List Token} (hne : tokens ≠ []) :
    (e.Fits m c tokens ∧ ∃ e' : Engine, e'.evaluated = e.evaluated.take c.position ++ tokens ∧
      e.evaluate k c tokens = (.ok (), e',
        { c with tokens := c.tokens.take c.position ++ tokens, position := c.position + tokens.length })) ∨
    (¬e.Fits m c tokens ∧ ∃ err, e.evaluate k c tokens = (.error err, e, c)) := by
  obtain ⟨s, hsession, rfl, hs, -⟩ := h
  unfold Fits
  rw [evaluated_eq hsession]
  by_cases hfits : c.position ≤ s.evaluation.tokens.length ∧
      c.position + tokens.length ≤ s.model.hyperparameters.context ∧
      ∀ t ∈ tokens, t.isBelow s.model.hyperparameters.vocab = true
  · obtain ⟨hstart, hroom, hbelow⟩ := hfits
    obtain ⟨v, hv, heq⟩ := exists_evaluate (k := k) hsession hs hne hstart hroom hbelow
    exact .inl ⟨⟨hstart, hroom, hbelow⟩, { e with evaluation := some v }, hv.tokens_eq, heq⟩
  · have hrefused : s.evaluation.position < c.position ∨
        s.model.hyperparameters.context < c.position + tokens.length ∨
        ∃ t ∈ tokens, t.isBelow s.model.hyperparameters.vocab = false := by
      by_contra hnone
      simp only [not_or, Nat.not_lt, not_exists, not_and, Bool.not_eq_false] at hnone
      exact hfits hnone
    obtain ⟨err, hadmission⟩ := (admission_eq_error_iff _ _ _ _).2 ⟨hne, hrefused⟩
    have heq := evaluate_eq (k := k) hsession hs c tokens
    rw [hadmission] at heq
    exact .inr ⟨hfits, err, heq⟩

/-- **What a history gives rise to**: the engine has logits, those of the uncached pass over it. -/
def HasLogitsOf (k : Kernels) (m : Model) (e : Engine) (history : List Token) : Prop :=
  ∃ s, e.session = some s ∧ s.evaluation.hasLogits = true ∧
    s.evaluation.logits = Uncached.logits k m.hyperparameters m.weights history

theorem Genuine.hasLogitsOf (h : e.Genuine k m) (hne : e.evaluated ≠ []) : e.HasLogitsOf k m e.evaluated := by
  obtain ⟨s, hsession, rfl, hs, hg⟩ := h
  rw [evaluated_eq hsession] at hne ⊢
  have hhas := hs.evaluation.hasLogits_iff.2 hne
  exact ⟨s, hsession, hhas, hg.logits_eq hhas⟩

end Decoder.Engine

namespace Generation

variable {m : Model} {e : Engine} {c d : Context} {o : Options}

/-! ## Requests -/

/-- What a start leaves after so many calls: the run of the generation, or of the attempt. -/
def Start.after {σ : Type} [Backend σ] (calls : Nat) : Start σ → Run σ
  | .ok g => (pull calls g).2.run
  | .error (_, r) => r

/-- **What a client asks for** through its context. -/
inductive Request
  | evaluate (tokens : List Token)
  | truncate (n : Nat)
  | clear
  /-- A generation, and so many of its calls. -/
  | generate (prompt : String) (o : Options) (calls : Nat)
  | resume (o : Options) (calls : Nat)

namespace Request

/-- **The engine and the context as a request leaves them**, served or refused. -/
def serve (e : Engine) (c : Context) : Request → Engine × Context
  | .evaluate tokens => (e.evaluate .machine c tokens).2
  | .truncate n => (e, c.truncate n)
  | .clear => (e, c.clear)
  | .generate prompt o calls => (((start e c prompt o).after calls).backend, ((start e c prompt o).after calls).context)
  | .resume o calls =>
    (((Generation.resume e c o).after calls).backend, ((Generation.resume e c o).after calls).context)

/-- **A property of an engine and a context that every request keeps**, by what requests are made of. -/
structure Keeps (P : Engine → Context → Prop) : Prop where
  upholds : Backend.Upholds P
  sample : ∀ (e : Engine) (c : Context), P e c → P (e.sample c).2 c
  setSeed : ∀ (e : Engine) (c : Context) (seed : UInt64), P e c → P (Backend.setSeed e seed) c
  configure : ∀ (e : Engine) (c : Context) (o : Options), P e c → P e (configure e c o)
  truncate : ∀ (e : Engine) (c : Context) (n : Nat), P e c → P e (c.truncate n)

variable {P : Engine → Context → Prop}

theorem Keeps.after (hP : Keeps P) (calls : Nat) {s : Start Engine} (h : P s.run.backend s.run.context) :
    P (s.after calls).backend (s.after calls).context := by
  cases s with
  | ok g => exact pull_upholds hP.upholds hP.sample calls h
  | error attempt => exact h

theorem Keeps.serve (hP : Keeps P) (h : P e c) (q : Request) : P (q.serve e c).1 (q.serve e c).2 := by
  cases q with
  | evaluate tokens => exact hP.upholds.evaluate e c tokens h
  | truncate n => exact hP.truncate e c n h
  | clear => exact hP.truncate e c 0 h -- an empty context is one that went back to the start
  | generate prompt o calls =>
    have hfirst : P (firstRun e c o).backend (Generation.configure e c o) := by
      have hconfigured := hP.configure e c o h
      unfold firstRun
      cases o.seed with
      | none => exact hconfigured
      | some seed => exact hP.setSeed _ _ _ hconfigured
    exact hP.after calls (start_upholds hP.upholds prompt h hfirst)
  | resume o calls => exact hP.after calls (resume_upholds h (hP.configure e c o h))

theorem keeps_derived (m : Model) : Keeps fun e _ => Engine.Derived .machine m e where
  upholds := Backend.Steady.upholds ⟨fun _ c tokens h => h.evaluate c tokens, fun _ h => h.reset⟩
  sample _ c h := h.sample c
  setSeed _ _ seed h := h.setSeed seed
  configure _ _ _ h := h
  truncate _ _ _ h := h

theorem keeps_related {R : List Token → List Token → Prop} (hnil : R [] [])
    (hstep : ∀ held evaluated tokens, R held evaluated → held.length ≤ evaluated.length →
      R (held ++ tokens) (evaluated.take held.length ++ tokens))
    (htake : ∀ held evaluated n, R held evaluated → R (held.take n) evaluated) : Keeps (Engine.Related R) where
  upholds := Engine.upholds_related hnil hstep
  sample _ _ h := h.sample
  setSeed _ _ _ h := ⟨h.sound, h.position_eq, h.tokens⟩
  configure _ _ _ h := ⟨h.sound, h.position_eq, h.tokens⟩
  truncate _ _ n h := ⟨h.sound, rfl, htake _ _ n h.tokens⟩

theorem keeps_position : Keeps (Engine.Related fun _ _ => True) :=
  keeps_related trivial (fun _ _ _ _ _ => trivial) fun _ _ _ _ => trivial

/-- **Tokens that came first come first again**: a client ends this of its own context by nothing it asks for. -/
theorem keeps_prefix : Keeps (Engine.Related fun held evaluated => held <+: evaluated) := by
  refine keeps_related List.prefix_rfl (fun held evaluated tokens h _ => ?_) fun held evaluated n h => ?_
  · simp only [← List.prefix_iff_eq_take.1 h, List.prefix_rfl]
  · exact (List.take_prefix n held).trans h

end Request

/-! ## Two clients -/

/-- **An engine that two clients use in turns**, with the contexts they do it through; both begin with a new one. -/
inductive Interleaved (m : Model) : Engine → Context → Context → Prop
  | begin {e : Engine} (h : Engine.Derived .machine m e) (n n' : Nat) :
    Interleaved m e (Context.new n) (Context.new n')
  | serve {e : Engine} {c d : Context} (h : Interleaved m e c d) (q : Request) :
    Interleaved m (q.serve e c).1 (q.serve e c).2 d
  /-- It is the other one's turn. -/
  | turn {e : Engine} {c d : Context} (h : Interleaved m e c d) : Interleaved m e d c

theorem Interleaved.derived (h : Interleaved m e c d) : Engine.Derived .machine m e := by
  induction h with
  | begin h n n' => exact h
  | serve h q ih => exact (Request.keeps_derived m).serve ih q
  | turn h ih => exact ih

theorem Interleaved.genuine (h : Interleaved m e c d) : e.Genuine .machine m := Engine.genuine_of_derived h.derived

theorem Interleaved.sound (h : Interleaved m e c d) : e.Sound := by
  obtain ⟨s, hsession, -, hs, -⟩ := h.genuine
  exact Engine.sound_some hsession hs

theorem Interleaved.position_eq (h : Interleaved m e c d) :
    c.position = c.tokens.length ∧ d.position = d.tokens.length := by
  induction h with
  | begin h n n' => exact ⟨rfl, rfl⟩
  | serve h q ih =>
    -- the other context is not touched
    exact ⟨(Request.keeps_position.serve ⟨h.sound, ih.1, trivial⟩ q).position_eq, ih.2⟩
  | turn h ih => exact ih.symm

theorem Interleaved.evaluate (h : Interleaved m e c d) (tokens : List Token) :
    Interleaved m (e.evaluate .machine c tokens).2.1 (e.evaluate .machine c tokens).2.2 d :=
  h.serve (.evaluate tokens)

section

variable {e' : Engine} {c' : Context} {g : Generation Engine} {tokens : List Token}

theorem Interleaved.evaluate_cases (h : Interleaved m e c d) (hne : tokens ≠ []) :
    (e.Fits m c tokens ∧ ∃ e' : Engine, e'.evaluated = e.evaluated.take c.tokens.length ++ tokens ∧
      e.evaluate .machine c tokens = (.ok (), e',
        { c with tokens := c.tokens ++ tokens, position := c.tokens.length + tokens.length })) ∨
    (¬e.Fits m c tokens ∧ ∃ err, e.evaluate .machine c tokens = (.error err, e, c)) := by
  have hcases := h.genuine.evaluate_cases c hne
  have hposition := h.position_eq.1
  have hhistory : c.tokens.take c.position = c.tokens := by rw [hposition, List.take_length]
  rw [hhistory] at hcases
  rwa [hposition] at hcases

/-- **What tokens that were evaluated leave**: as many tokens in the engine as in the context, and the context's own
exactly if these came first. -/
theorem Interleaved.of_evaluate_eq_ok (h : Interleaved m e c d) (hne : tokens ≠ [])
    (hok : e.evaluate .machine c tokens = (.ok (), e', c')) :
    c'.tokens = c.tokens ++ tokens ∧ e'.evaluated = e.evaluated.take c.tokens.length ++ tokens ∧
    e'.evaluated.length = c'.tokens.length ∧ e'.HasLogitsOf .machine m e'.evaluated ∧
    (e'.evaluated = c'.tokens ↔ c.tokens <+: e.evaluated) := by
  have hlater := h.evaluate tokens
  rcases h.evaluate_cases hne with ⟨hfits, e₁, hevaluated, heq⟩ | ⟨-, err, heq⟩
  · rw [heq] at hok hlater
    cases hok
    have hstart : c.tokens.length ≤ e.evaluated.length := h.position_eq.1 ▸ hfits.1
    refine ⟨rfl, hevaluated, ?_, hlater.genuine.hasLogitsOf ?_, ?_⟩
    · rw [hevaluated, List.length_append, List.length_take, Nat.min_eq_left hstart, List.length_append]
    · rw [hevaluated]
      exact List.append_ne_nil_of_right_ne_nil _ hne
    · rw [hevaluated, List.append_left_inj, List.prefix_iff_eq_take, eq_comm]
  · rw [heq] at hok
    cases hok

theorem Interleaved.of_resume_eq_ok (h : Interleaved m e c d) (hok : resume e c o = .ok g) :
    g.run.backend = e ∧ g.run.context.tokens = c.tokens ∧
    (c.tokens ≠ [] → e.HasLogitsOf .machine m e.evaluated) ∧ (e.evaluated = c.tokens ↔ c.tokens <+: e.evaluated) := by
  obtain ⟨s, hsession, -⟩ := h.genuine
  obtain ⟨-, hlevel, rfl⟩ := (resume_eq_ok_iff hsession).1 hok
  rw [h.position_eq.1] at hlevel
  refine ⟨rfl, rfl, fun hne => h.genuine.hasLogitsOf fun hnothing => hne ?_, fun heq => heq ▸ List.prefix_rfl,
    fun hbegins => (hbegins.eq_of_length hlevel).symm⟩
  rwa [hnothing, List.length_nil, List.length_eq_zero_iff] at hlevel

end

/-- **What two clients of one engine can rely on.**  In every interleaving of their requests, and through either context:
- tokens are evaluated exactly if the engine holds no fewer than the context, there is room for them and they are known;
  else nothing changes;
- a generation goes on from what is there exactly if its options are in range and the engine holds as many tokens as the
  context;
- then the engine holds as many tokens as the context and the logits of those it holds, and they are the context's own
  exactly if the context's came first in the engine before;
- nothing that is asked for through the context itself ends that these come first. -/
theorem interleaved_requests (h : Interleaved m e c d) :
    c.position = c.tokens.length ∧
    (∀ tokens, tokens ≠ [] →
      ((e.evaluate .machine c tokens).1 = .ok () ↔ e.Fits m c tokens) ∧
      (∀ err e' c', e.evaluate .machine c tokens = (.error err, e', c') → e' = e ∧ c' = c) ∧
      (∀ e' c', e.evaluate .machine c tokens = (.ok (), e', c') →
        c'.tokens = c.tokens ++ tokens ∧ e'.evaluated = e.evaluated.take c.tokens.length ++ tokens ∧
        e'.evaluated.length = c'.tokens.length ∧ e'.HasLogitsOf .machine m e'.evaluated ∧
        (e'.evaluated = c'.tokens ↔ c.tokens <+: e.evaluated))) ∧
    (∀ o, ((∃ g, resume e c o = .ok g) ↔ o.validate = .ok () ∧ c.tokens.length = e.evaluated.length) ∧
      ∀ g, resume e c o = .ok g → g.run.backend = e ∧ g.run.context.tokens = c.tokens ∧
        (c.tokens ≠ [] → e.HasLogitsOf .machine m e.evaluated) ∧
        (e.evaluated = c.tokens ↔ c.tokens <+: e.evaluated)) ∧
    (c.tokens <+: e.evaluated → ∀ q : Request, (q.serve e c).2.tokens <+: (q.serve e c).1.evaluated) := by
  have hposition := h.position_eq.1
  refine ⟨hposition, fun tokens hne => ⟨?_, fun err e' c' hfail => ?_, fun e' c' hok => h.of_evaluate_eq_ok hne hok⟩,
    fun o => ⟨?_, fun g hok => h.of_resume_eq_ok hok⟩, fun hbegins q => ?_⟩
  · rcases h.evaluate_cases hne with ⟨hfits, e', -, heq⟩ | ⟨hunfit, err, heq⟩
    · rw [heq]
      exact iff_of_true rfl hfits
    · rw [heq]
      exact iff_of_false (fun h => nomatch h) hunfit
  · rcases h.evaluate_cases hne with ⟨-, e₁, -, heq⟩ | ⟨-, err', heq⟩
    · rw [heq] at hfail
      cases hfail
    · rw [heq] at hfail
      cases hfail
      exact ⟨rfl, rfl⟩
  · obtain ⟨s, hsession, -⟩ := h.genuine
    rw [← hposition]
    constructor
    · rintro ⟨g, hok⟩
      obtain ⟨hvalid, hlevel, -⟩ := (resume_eq_ok_iff hsession).1 hok
      exact ⟨hvalid, hlevel⟩
    · rintro ⟨hvalid, hlevel⟩
      exact ⟨_, (resume_eq_ok_iff hsession).2 ⟨hvalid, hlevel, rfl⟩⟩
  · exact (Request.keeps_prefix.serve ⟨h.sound, hposition, hbegins⟩ q).tokens

/-! ### Two tokens for one position -/

theorem Interleaved.fits_smallest {t : Token} (h : Interleaved m e c d) (hsizes : m.hyperparameters = Decoder.smallestSizes)
    (hheld : c.tokens.length ≤ 1) (hstart : c.tokens.length ≤ e.evaluated.length) (ht : t.isBelow 2 = true) :
    e.Fits m c [t] := by
  unfold Engine.Fits
  rw [hsizes, h.position_eq.1]
  exact ⟨hstart, Nat.succ_le_succ hheld, List.forall_mem_singleton.2 ht⟩

/-- What a first client of the smallest model leaves, with one token. -/
def servedFirst : Engine × Context := (Request.evaluate [.ofIndex 0]).serve (Engine.smallest 1) (Context.new 2)

/-- What a second client leaves after that, with the other token in the same place. -/
def servedSecond : Engine × Context := (Request.evaluate [.ofIndex 1]).serve servedFirst.1 (Context.new 2)

theorem exists_interleaved_smallest : ∃ m : Model, m.hyperparameters = Decoder.smallestSizes ∧
    Interleaved m servedSecond.1 servedFirst.2 servedSecond.2 ∧ servedFirst.2.tokens = [.ofIndex 0] ∧
    servedSecond.2.tokens = [.ofIndex 1] ∧ servedSecond.1.evaluated = [.ofIndex 1] := by
  obtain ⟨m, v, hsizes, -, hload⟩ := Decoder.load_smallest
  have hfirst : ∀ {a : Engine} {d : Context} (t : Token), Interleaved m a (Context.new 2) d → t.isBelow 2 = true →
      ((Request.evaluate [t]).serve a (Context.new 2)).2.tokens = [t] ∧
      ((Request.evaluate [t]).serve a (Context.new 2)).1.evaluated = [t] := by
    intro a d t h ht
    unfold Request.serve
    rcases h.evaluate_cases (List.cons_ne_nil t []) with ⟨-, a', hevaluated, heq⟩ | ⟨hunfit, -⟩
    · simp only [heq]
      exact ⟨rfl, hevaluated⟩
    · exact absurd (h.fits_smallest hsizes (Nat.zero_le 1) (Nat.zero_le _) ht) hunfit
  have hbegin : Interleaved m (Engine.smallest 1) (Context.new 2) (Context.new 2) :=
    .begin (.load _ _ _ (hload 1).1 (hload 1).2 rfl) 2 2
  have hturn : Interleaved m servedFirst.1 (Context.new 2) servedFirst.2 := (hbegin.serve _).turn
  obtain ⟨hsecond, hevaluated⟩ := hfirst (.ofIndex 1) hturn (by decide)
  exact ⟨m, hsizes, (hturn.serve _).turn, (hfirst (.ofIndex 0) hbegin (by decide)).1, hsecond, hevaluated⟩

/-- The client whose token is there evaluates another one, and goes on from exactly its own. -/
theorem interleaved_requests_smallest : ∃ (m : Model) (e' : Engine) (c' : Context) (g : Generation Engine),
    Interleaved m servedSecond.1 servedSecond.2 servedFirst.2 ∧
    servedSecond.1.evaluate .machine servedSecond.2 [.ofIndex 0] = (.ok (), e', c') ∧
    e'.evaluated = [.ofIndex 1, .ofIndex 0] ∧ e'.evaluated = c'.tokens ∧
    resume servedSecond.1 servedSecond.2 .default = .ok g ∧ g.run.context.tokens = servedSecond.1.evaluated := by
  obtain ⟨m, hsizes, h, -, hc, he⟩ := exists_interleaved_smallest
  obtain ⟨-, hevaluates, hresumes, -⟩ := interleaved_requests h.turn
  obtain ⟨hok, -, hleaves⟩ := hevaluates [.ofIndex 0] (List.cons_ne_nil _ _)
  obtain ⟨hresumed, hgoes⟩ := hresumes .default
  obtain ⟨g, hg⟩ := hresumed.2 ⟨rfl, by rw [hc, he]⟩
  have hanswer := hok.2 (h.turn.fits_smallest hsizes (by simp [hc]) (by simp [hc, he]) (by decide))
  rcases heq : servedSecond.1.evaluate .machine servedSecond.2 [.ofIndex 0] with ⟨answer, e', c'⟩
  rw [heq] at hanswer
  cases hanswer
  obtain ⟨-, hevaluated, -, -, hsame⟩ := hleaves e' c' heq
  rw [he, hc] at hevaluated hsame
  exact ⟨m, e', c', g, h.turn, rfl, hevaluated, hsame.2 List.prefix_rfl, hg, (hgoes g hg).2.1.trans (hc.trans he.symm)⟩

/-- **A context can be served behind another one's tokens.**  The client whose token is gone evaluates the next one without
a failure, and the engine holds neither its history nor the other one's; it goes on from there without a failure, too. -/
theorem mixed_requests_smallest : ∃ (m : Model) (e' : Engine) (c' : Context) (g : Generation Engine),
    Interleaved m servedSecond.1 servedFirst.2 servedSecond.2 ∧
    servedSecond.1.evaluate .machine servedFirst.2 [.ofIndex 0] = (.ok (), e', c') ∧
    c'.tokens = [.ofIndex 0, .ofIndex 0] ∧ e'.evaluated = [.ofIndex 1, .ofIndex 0] ∧ e'.evaluated ≠ c'.tokens ∧
    resume e' c' .default = .ok g ∧ g.run.backend.evaluated ≠ g.run.context.tokens := by
  obtain ⟨m, hsizes, h, hc, -, he⟩ := exists_interleaved_smallest
  have hfits : servedSecond.1.Fits m servedFirst.2 [.ofIndex 0] :=
    h.fits_smallest hsizes (by simp [hc]) (by simp [hc, he]) (by decide)
  have hlater := h.evaluate [.ofIndex 0]
  rcases h.evaluate_cases (List.cons_ne_nil _ _) with ⟨-, e', hevaluated, heq⟩ | ⟨hunfit, -⟩
  · rw [heq] at hlater
    rw [hc, he] at hevaluated
    rw [hc] at heq hlater
    have hmixed : e'.evaluated ≠ [.ofIndex 0, .ofIndex 0] := by
      rw [hevaluated]
      decide
    obtain ⟨s, hsession, -⟩ := hlater.genuine
    refine ⟨m, e', _, _, h, heq, rfl, hevaluated, hmixed, (resume_eq_ok_iff hsession).2 ⟨rfl, ?_, rfl⟩, hmixed⟩
    rw [hevaluated]
    rfl
  · exact absurd hfits hunfit

end Generation
end CausalLM
