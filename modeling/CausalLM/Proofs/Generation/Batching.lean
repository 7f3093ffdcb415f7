import CausalLM.Proofs.Decoder.Compatibility
import CausalLM.Proofs.Generation.Continuation
import CausalLM.Proofs.Generation.Ingestion
/-!
# Proofs.Generation.Batching — how much of a prompt goes in at once

However tokens are cut, evaluating the pieces makes of an engine what evaluating all of them at once makes of it
(`InLine.alike_evaluateAll`).  And without a share of the history to drop nothing reads the batch of a context but the
start, which cuts the prompt by it: the same run with another batch goes on as it would have (`pull_rebatch`).  So the
batch of the options makes no difference (`batched_start`).
-/
namespace CausalLM

open Decoder (Engine Session Model Evaluation)

/-- The context with another batch. -/
def Context.rebatch (n : Nat) (c : Context) : Context := { c with batch := n }

theorem Context.SameSettings.erase_eq {c d : Context} (h : c.SameSettings d) : d.erase = c.erase := by
  rw [h]

theorem Decoder.Engine.evaluate_rebatch (k : Kernels) (e : Engine) (n : Nat) (c : Context) (tokens : List Token) :
    e.evaluate k (c.rebatch n) tokens =
      ((e.evaluate k c tokens).1, (e.evaluate k c tokens).2.1, (e.evaluate k c tokens).2.2.rebatch n) := by
  unfold evaluate Context.rebatch
  split
  · rfl
  · dsimp only
    split
    · rfl
    split
    · rfl
    split
    · rfl
    split
    · rfl
    · split <;> rfl

namespace Generation

/-! ## However tokens are cut -/

section

variable {m : Model} {r : Run Engine} {s : Session}

/-- **Pieces make of an evaluation what all of their tokens make of it.** -/
theorem InLine.extended_evaluateAll : ∀ {pieces : List (List Token)} {r : Run Engine} {s : Session}, InLine m r →
    r.backend.session = some s → pieces ≠ [] → (∀ piece ∈ pieces, piece ≠ []) →
    r.context.position + pieces.flatten.length ≤ r.context.capacity →
    (∀ t ∈ pieces.flatten, t.isBelow m.hyperparameters.vocab = true) →
    ∃ v, s.evaluation.Extended .machine s.model r.context.position pieces.flatten v ∧
      (r.evaluateAll pieces).2.backend = { r.backend with evaluation := some v }
  | [], _, _, _, _, hpieces, _, _, _ => absurd rfl hpieces
  | piece :: rest, r, s, h, hsession, _, hne, hroom, hbelow => by
    rw [List.flatten_cons] at hroom hbelow ⊢
    rw [List.length_append] at hroom
    obtain ⟨hpiece, hrest⟩ := List.forall_mem_cons.1 hne
    obtain ⟨hfirst, hothers⟩ := List.forall_mem_append.1 hbelow
    obtain ⟨r', hevaluate, hextends⟩ := h.evaluate hpiece (by omega) hfirst
    obtain ⟨v, hv, heq⟩ := h.exists_evaluate hsession hpiece (by omega) hfirst
    cases hevaluate.symm.trans heq
    rw [Run.evaluateAll, hevaluate]
    cases rest with
    | nil =>
      rw [List.flatten_nil, List.append_nil]
      exact ⟨v, hv, rfl⟩
    | cons next rest =>
      have hroom' : r.context.position + piece.length + (next :: rest).flatten.length ≤ r.context.capacity := by omega
      obtain ⟨w, hw, hbackend⟩ :=
        InLine.extended_evaluateAll hextends.inLine (Engine.session_of_loaded_eq hsession rfl rfl) (List.cons_ne_nil _ _)
          hrest hroom' hothers
      have hmore : (next :: rest).flatten ≠ [] := fun hnil => List.cons_ne_nil _ _ ((flatten_eq_nil_iff hrest).1 hnil)
      exact ⟨w, hv.append hw (h.position_le_length hsession) hmore, hbackend⟩

theorem InLine.alike_self (h : InLine m r) : Run.Alike 0 r r := by
  obtain ⟨s, hsession, hs, -⟩ := h.session
  exact ⟨⟨s, s, hsession, hsession, hs, hs, rfl, ⟨rfl, rfl, rfl⟩, rfl⟩, rfl, (Nat.zero_add _).symm⟩

/-- **However tokens are cut**, evaluating the pieces succeeds and leaves alike runs. -/
theorem InLine.alike_evaluateAll (h : InLine m r) {pieces pieces' : List (List Token)}
    (hflatten : pieces.flatten = pieces'.flatten) (hne : ∀ piece ∈ pieces, piece ≠ [])
    (hne' : ∀ piece ∈ pieces', piece ≠ []) (hroom : r.context.position + pieces.flatten.length ≤ r.context.capacity)
    (hbelow : ∀ t ∈ pieces.flatten, t.isBelow m.hyperparameters.vocab = true) :
    ∃ r₁ r₂, r.evaluateAll pieces = (.ok (), r₁) ∧ r.evaluateAll pieces' = (.ok (), r₂) ∧ Run.Alike 0 r₁ r₂ := by
  obtain ⟨r₁, hr₁, hextends₁⟩ := h.evaluateAll hne hroom hbelow
  obtain ⟨r₂, hr₂, hextends₂⟩ := h.evaluateAll hne' (hflatten ▸ hroom) (hflatten ▸ hbelow)
  refine ⟨r₁, r₂, hr₁, hr₂, ?_⟩
  have hnone := flatten_eq_nil_iff hne
  have hnone' := flatten_eq_nil_iff hne'
  rw [← hflatten] at hnone'
  by_cases hnil : pieces.flatten = []
  · rw [hnone.1 hnil] at hr₁
    rw [hnone'.1 hnil] at hr₂
    cases hr₁
    cases hr₂
    exact h.alike_self
  obtain ⟨s, hsession, hs, rfl⟩ := h.session
  obtain ⟨v, hv, hbackend₁⟩ := h.extended_evaluateAll hsession (mt hnone.2 hnil) hne hroom hbelow
  obtain ⟨w, hw, hbackend₂⟩ := h.extended_evaluateAll hsession (mt hnone'.2 hnil) hne' (hflatten ▸ hroom)
    (hflatten ▸ hbelow)
  rw [hr₁] at hbackend₁
  rw [hr₂] at hbackend₂
  rw [← hflatten] at hw hextends₂
  have hagree : v.Agrees w :=
    Evaluation.Agrees.extended ⟨rfl, rfl, rfl⟩ hs.evaluation hs.evaluation (h.position_le_length hsession) hv hw
  refine ⟨⟨{ s with evaluation := v }, { s with evaluation := w }, ?_, ?_, ⟨hs.model, hv.sound⟩, ⟨hs.model, hw.sound⟩,
    rfl, hagree, ?_⟩, hextends₁.context_eq.trans hextends₂.context_eq.symm, ?_⟩
  · exact (congrArg Engine.session hbackend₁).trans (Engine.session_of_loaded_eq hsession rfl rfl)
  · exact (congrArg Engine.session hbackend₂).trans (Engine.session_of_loaded_eq hsession rfl rfl)
  · exact (congrArg Engine.rng hbackend₁).trans (congrArg Engine.rng hbackend₂).symm
  · rw [hextends₁.recycled_eq, hextends₂.recycled_eq, Nat.zero_add]

end

/-! ## Another batch in the context -/

def Run.rebatch (n : Nat) (r : Run Engine) : Run Engine := { r with context := r.context.rebatch n }

/-- The generation with another batch in its context. -/
def rebatch (n : Nat) (g : Generation Engine) : Generation Engine := { g with run := g.run.rebatch n }

namespace Run

variable {r : Run Engine} (n : Nat)

theorem evaluate_rebatch (r : Run Engine) (tokens : List Token) :
    (r.rebatch n).evaluate tokens = ((r.evaluate tokens).1, (r.evaluate tokens).2.rebatch n) := by
  have hevaluate : Backend.evaluate r.backend (r.context.rebatch n) tokens = _ :=
    Engine.evaluate_rebatch .machine r.backend n r.context tokens
  unfold evaluate rebatch
  rw [hevaluate]
  rfl

theorem evaluateAll_rebatch : ∀ (pieces : List (List Token)) (r : Run Engine),
    (r.rebatch n).evaluateAll pieces = ((r.evaluateAll pieces).1, (r.evaluateAll pieces).2.rebatch n)
  | [], _ => rfl
  | piece :: rest, r => by
    rw [evaluateAll, evaluateAll, evaluate_rebatch]
    rcases r.evaluate piece with ⟨_ | _, r'⟩
    · rfl
    · exact evaluateAll_rebatch rest r'

/-- Making room would read the batch; without a share to drop it is refused. -/
theorem feed_rebatch (herase : r.context.erase = none) (tokens : List Token) :
    (r.rebatch n).feed tokens = ((r.feed tokens).1, (r.feed tokens).2.rebatch n) := by
  have hrefused : ∀ {r : Run Engine}, r.context.erase = none → ∀ incoming, r.recycle incoming =
      (.error (.error (.contextOverflow r.context.position incoming r.context.capacity)), r) := by
    intro r herase incoming
    simp only [recycle, herase]
  have herase' : (r.rebatch n).context.erase = none := herase
  unfold feed
  rw [hrefused herase, hrefused herase', evaluate_rebatch]
  by_cases hroom : r.context.capacity < r.context.position + tokens.length
  · rw [if_pos hroom]
    exact if_pos hroom
  · rw [if_neg hroom]
    exact if_neg hroom

theorem step_rebatch (herase : r.context.erase = none) : (r.rebatch n).step = (r.step.1, r.step.2.rebatch n) := by
  have hsample : Backend.sample (r.rebatch n).backend (r.rebatch n).context = Backend.sample r.backend r.context := rfl
  rw [step_eq, step_eq, hsample]
  rcases Backend.sample r.backend r.context with ⟨e | t, b⟩
  · rfl
  · have hfeed : ({ r.rebatch n with backend := b } : Run Engine).feed [t] = _ :=
      feed_rebatch n (r := { r with backend := b }) herase [t]
    dsimp only
    rw [hfeed]
    split <;> rfl

theorem erase_step (r : Run Engine) : r.step.2.context.erase = r.context.erase :=
  (step_upholds (Engine.upholds_settings r.context) (fun _ _ h => h)
    (show r.context.SameSettings r.context from rfl)).erase_eq

end Run

variable {g : Generation Engine} (n : Nat)

theorem finish_rebatch (g : Generation Engine) (reason : StopReason) :
    (g.rebatch n).finish reason = ((g.finish reason).1, (g.finish reason).2.rebatch n) := by
  unfold finish
  change (if g.held.isEmpty then _ else _) = _
  split <;> rfl

theorem fail_rebatch (g : Generation Engine) (e : Failure) :
    (g.rebatch n).fail e = ((g.fail e).1, (g.fail e).2.rebatch n) := by
  cases e <;> rfl

/-- **A call of `next` does not read the batch** where nothing may be dropped. -/
theorem next_rebatch (herase : g.run.context.erase = none) :
    (g.rebatch n).next = (g.next.1, g.next.2.rebatch n) := by
  fun_induction Generation.next g with
  | case1 g hd => exact next_of_isDone (g := g.rebatch n) hd
  | case2 g hd hbudget => exact (next_of_spent (g := g.rebatch n) hd hbudget).trans (finish_rebatch n g _)
  | case3 g hd hbudget e run hstep =>
    have hstep' : (g.rebatch n).run.step = _ := Run.step_rebatch n herase
    rw [hstep] at hstep'
    rw [next_of_going (g := g.rebatch n) hd hbudget, hstep']
    exact fail_rebatch n { g with run } e
  | case4 g hd hbudget run hstep =>
    have hstep' : (g.rebatch n).run.step = _ := Run.step_rebatch n herase
    rw [hstep] at hstep'
    rw [next_of_going (g := g.rebatch n) hd hbudget, hstep']
    exact finish_rebatch n { g with run } _
  | case5 g hd hbudget t run hstep taken htext ih =>
    have hstep' : (g.rebatch n).run.step = _ := Run.step_rebatch n herase
    have hkept := Run.erase_step g.run
    rw [hstep] at hstep' hkept
    rw [next_of_going (g := g.rebatch n) hd hbudget, hstep']
    exact (if_pos htext).trans (ih (hkept.trans herase))
  | case6 g hd hbudget t run hstep taken htext =>
    have hstep' : (g.rebatch n).run.step = _ := Run.step_rebatch n herase
    rw [hstep] at hstep'
    rw [next_of_going (g := g.rebatch n) hd hbudget, hstep']
    exact if_neg htext

theorem erase_next (g : Generation Engine) : g.next.2.run.context.erase = g.run.context.erase :=
  (next_upholds (Engine.upholds_settings g.run.context) (fun _ _ h => h)
    (show g.run.context.SameSettings g.run.context from rfl)).erase_eq

theorem pull_rebatch : ∀ (k : Nat) {g : Generation Engine}, g.run.context.erase = none →
    pull k (g.rebatch n) = ((pull k g).1, (pull k g).2.rebatch n)
  | 0, _, _ => rfl
  | k + 1, g, herase => by
    have hrest := pull_rebatch k ((erase_next g).trans herase)
    have hnext := next_rebatch n herase
    rw [pull, pull, hnext]
    dsimp only
    rw [hrest]

/-! ## Starting -/

theorem Alike.exists_capture {g g' : Generation Engine} (h : Alike g g') : ∃ bytes,
    Backend.capture g.run.backend = .ok bytes ∧ Backend.capture g'.run.backend = .ok bytes := by
  have hcapture := h.run.backend.capture_eq
  obtain ⟨s, t, hsession, -, hs, -⟩ := h.run.backend
  have hbytes := Engine.capture_eq hsession hs
  exact ⟨_, hbytes, hcapture ▸ hbytes⟩

section

variable {e : Engine} {s : Session} {c : Context} {o : Options} {tokens : List Token}

/-- Tokens that fit go in whatever the batch, and leave alike runs up to the batch. -/
theorem alike_feedAll_chunks (h : InLine s.model (firstRun e c o)) (n : Nat)
    (hroom : c.position + tokens.length ≤ s.model.hyperparameters.context)
    (hbelow : ∀ t ∈ tokens, t.isBelow s.model.hyperparameters.vocab = true) :
    ∃ r r', (firstRun e c o).feedAll (chunks o.batch tokens) = (.ok (), r) ∧
      (firstRun e c { o with batch := n }).feedAll (chunks n tokens) = (.ok (), r'.rebatch n) ∧ Run.Alike 0 r r' := by
  have hflatten : ∀ n, (chunks n tokens).flatten = tokens := fun n => flatten_chunks n tokens
  have hroom' : ∀ n, (firstRun e c o).context.position + (chunks n tokens).flatten.length ≤
      (firstRun e c o).context.capacity := by
    intro n
    rw [hflatten, h.capacity_eq]
    exact hroom
  have hbelow' : ∀ n, ∀ t ∈ (chunks n tokens).flatten, t.isBelow s.model.hyperparameters.vocab = true := by
    intro n
    rwa [hflatten]
  have hother : InLine s.model (firstRun e c { o with batch := n }) :=
    ⟨h.session, h.tokens_begin, h.position_eq, h.capacity_eq⟩
  have hrebatch : firstRun e c { o with batch := n } = (firstRun e c o).rebatch n := rfl
  obtain ⟨r, r', hr, hr', halike⟩ := h.alike_evaluateAll ((hflatten o.batch).trans (hflatten n).symm)
    (ne_nil_of_mem_chunks _ _) (ne_nil_of_mem_chunks _ _) (hroom' _) (hbelow' _)
  refine ⟨r, r', ?_, ?_, halike⟩
  · rw [h.feedAll_eq (ne_nil_of_mem_chunks _ _) (hroom' _) (hbelow' _), hr]
  · rw [hother.feedAll_eq (ne_nil_of_mem_chunks _ _) (hroom' n) (hbelow' _), hrebatch, Run.evaluateAll_rebatch, hr']

/-- **Without a share of the history to drop the batch makes no difference.**  From a context in line with a reachable
engine and for any prompt, options in range that differ in the batch alone fail with the same error, or start generations
that give the same items, the same tokens and the same statistics and leave the same bytes to capture, after any number
of calls. -/
theorem batched_start (h : Engine.Reachable .machine e) (hsession : e.session = some s)
    (hbegins : c.tokens <+: e.evaluated) (hposition : c.position = c.tokens.length) (herase : o.erase = none) {n : Nat}
    (hvalid : o.validate = .ok ()) (hvalid' : { o with batch := n }.validate = .ok ()) (prompt : String) :
    (∃ (err : Error) (r : Run Engine), start e c prompt o = .error (.error err, r) ∧
      start e c prompt { o with batch := n } = .error (.error err, r.rebatch n)) ∨
    ∃ g g', start e c prompt o = .ok g ∧ start e c prompt { o with batch := n } = .ok g' ∧ ∀ k,
      (pull k g).1 = (pull k g').1 ∧ (pull k g).2.generated = (pull k g').2.generated ∧
      (pull k g).2.stats = (pull k g').2.stats ∧ ∃ bytes, Backend.capture (pull k g).2.run.backend = .ok bytes ∧
        Backend.capture (pull k g').2.run.backend = .ok bytes := by
  have hs := Engine.sound_of_reachable h s hsession
  have hcapacity : Backend.contextLength e = s.model.hyperparameters.context := Engine.contextLength_eq hsession
  have hfirst : InLine s.model (firstRun e c o) := (conserves_firstRun hsession hs hbegins hposition).toInLine
  have hbelow := isBelow_encode_of_valid hs.model prompt
  rw [start_eq, start_eq, prepare_eq hsession, prepare_eq hsession, tokenize_firstRun hsession,
    tokenize_firstRun hsession, hcapacity, hvalid, hvalid']
  generalize s.model.tokenizer.encode prompt = tokens at hbelow ⊢
  simp only [Except.map]
  by_cases hnothing : tokens.isEmpty ∧ c.position = 0
  · rw [if_pos hnothing, if_pos hnothing]
    exact .inl ⟨_, _, rfl, rfl⟩
  rw [if_neg hnothing, if_neg hnothing]
  by_cases hover : s.model.hyperparameters.context < c.position + tokens.length ∧ o.erase.isNone
  · rw [if_pos hover, if_pos hover]
    exact .inl ⟨_, _, rfl, rfl⟩
  rw [if_neg hover, if_neg hover]
  have hroom : c.position + tokens.length ≤ s.model.hyperparameters.context :=
    Nat.not_lt.1 fun hlong => hover ⟨hlong, by rw [herase]; rfl⟩
  obtain ⟨r, r', hr, hr', halike⟩ := alike_feedAll_chunks hfirst n hroom hbelow
  rw [hr, hr']
  refine .inr ⟨_, _, rfl, rfl, fun k => ?_⟩
  have hkept := Run.feedAll_upholds (Engine.upholds_settings (configure e c o)) (chunks o.batch tokens)
    (r := firstRun e c o) rfl
  rw [hr] at hkept
  have herase' : r'.context.erase = none := halike.context_eq ▸ hkept.erase_eq.trans herase
  have hbegin : begin (r'.rebatch n) { o with batch := n } tokens.length = (begin r' o tokens.length).rebatch n := rfl
  rw [hbegin, pull_rebatch n k herase']
  have hstarted := alike_begin halike o tokens.length
  obtain ⟨hitems, hgenerated, hstats⟩ := hstarted.sameCourse k
  exact ⟨hitems, hgenerated, hstats, (hstarted.pull k).2.exists_capture⟩

end

/-! ### Three letters at once and one by one -/

/-- An engine with room for more than three tokens, which makes three of three letters. -/
theorem exists_encode_roomy : ∃ (e : Engine) (s : Session), Engine.Reachable .machine e ∧ e.session = some s ∧
    s.model.hyperparameters.context = 8 ∧ s.model.tokenizer.encode "aaa" = [.ofIndex 0, .ofIndex 0, .ofIndex 0] := by
  have hroomy : (8, 4) ∈ Decoder.variants := by decide
  obtain ⟨e, s, hreach, hsession, hm, hsizes⟩ := Decoder.exists_variant hroomy
  refine ⟨e, s, hreach, hsession, congrArg Hyperparameters.context hsizes, encode_of_ofFile hm ?_⟩
  rw [Model.ofFile, Model.readHeader, Container.parse_bytes (Decoder.readable_variant _ hroomy)]
  decide +kernel

/-- The letters go in at once or one by one, and what comes is the same. -/
theorem batched_start_letters : ∃ (e : Engine) (g g' : Generation Engine),
    start e (Context.new 8) "aaa" .default = .ok g ∧
    start e (Context.new 8) "aaa" { Options.default with batch := 1 } = .ok g' ∧ ∀ k,
      (pull k g).1 = (pull k g').1 ∧ (pull k g).2.generated = (pull k g').2.generated ∧
      Backend.capture (pull k g).2.run.backend = Backend.capture (pull k g').2.run.backend := by
  obtain ⟨e, s, hreach, hsession, hcontext, hencode⟩ := exists_encode_roomy
  rcases batched_start (c := Context.new 8) (o := .default) hreach hsession List.nil_prefix rfl rfl (n := 1) rfl rfl
    "aaa" with ⟨err, r, hfail, -⟩ | ⟨g, g', hg, hg', hcourse⟩
  · -- the letters are tokens, and they fit
    obtain ⟨err', -, hwhy⟩ :=
      start_eq_error hsession (Engine.sound_of_reachable hreach s hsession) List.nil_prefix rfl hfail
    rw [hencode, hcontext] at hwhy
    rcases hwhy with ⟨hinvalid, -⟩ | ⟨-, -, hunfit⟩
    · cases hinvalid
    · cases hunfit with
      | nothing hprompt => cases hprompt
      | noRoom _ hover => exact absurd hover (by decide)
      | longPiece herase => exact absurd rfl herase
  · refine ⟨e, g, g', hg, hg', fun k => ?_⟩
    obtain ⟨hitems, hgenerated, -, bytes, hbytes, hbytes'⟩ := hcourse k
    exact ⟨hitems, hgenerated, hbytes.trans hbytes'.symm⟩

end Generation
end CausalLM
