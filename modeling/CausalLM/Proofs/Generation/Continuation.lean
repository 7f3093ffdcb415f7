import CausalLM.Proofs.Decoder.Refinement
import CausalLM.Proofs.Generation.Likeness
/-!
# Proofs.Generation.Continuation — going on from a context the engine is ahead of

An engine may have evaluated more than its context holds, after the context went back.  It is ahead of another engine that
evaluated the context's tokens alone (`Run.Ahead`) until something is evaluated: the first tokens that go in, and a reset,
make the two alike (`Run.Ahead.feed`).  So a start from a prompt of at least one token takes the same course on both.
Without one nothing is evaluated before the first draw, and the engine that is ahead draws from the logits of the longer
history (`sameCourse_start`).
-/
namespace CausalLM

open Decoder (Engine Model)

namespace Decoder.Engine

variable {k : Kernels} {m : Model} {e e' : Engine}

theorem Genuine.of_session_eq (h : e.Genuine k m) (hsession : e'.session = e.session) : e'.Genuine k m := by
  unfold Genuine at h ⊢
  rwa [hsession]

end Decoder.Engine

namespace Generation

/-! ## Being ahead -/

/-- **The first run's engine may be ahead**: it evaluated the tokens of the context and possibly more, the other one these
tokens alone. -/
structure Run.Ahead (m : Model) (r r' : Run Engine) : Prop where
  genuine : r.backend.Genuine .machine m
  genuine_other : r'.backend.Genuine .machine m
  inLine : InLine m r
  inLine_other : InLine m r'
  evaluated_eq : r'.backend.evaluated = r'.context.tokens
  rng_eq : r.backend.rng = r'.backend.rng
  context_eq : r.context = r'.context
  recycled_eq : r.recycled = r'.recycled

variable {m : Model} {r r' : Run Engine} {tokens : List Token}

theorem Run.Ahead.alike (h : r.Ahead m r') (hevaluated : r.backend.evaluated = r.context.tokens) :
    Run.Alike 0 r r' := by
  have htokens : r.backend.evaluated = r'.backend.evaluated := by rw [hevaluated, h.evaluated_eq, h.context_eq]
  exact ⟨h.genuine.alike h.genuine_other htokens h.rng_eq, h.context_eq, h.recycled_eq.trans (Nat.zero_add _).symm⟩

/-- **Evaluating makes up for being ahead.** -/
theorem Run.Ahead.evaluate (h : r.Ahead m r') (hne : tokens ≠ [])
    (hroom : r.context.position + tokens.length ≤ r.context.capacity)
    (hbelow : ∀ t ∈ tokens, t.isBelow m.hyperparameters.vocab = true) :
    Run.Same 0 (r.evaluate tokens) (r'.evaluate tokens) := by
  obtain ⟨r₁, hr, hextends⟩ := h.inLine.evaluate hne hroom hbelow
  obtain ⟨r₁', hr', hextends'⟩ := h.inLine_other.evaluate hne (h.context_eq ▸ hroom) hbelow
  have hgenuine := h.genuine.evaluate r.context tokens
  have hgenuine' := h.genuine_other.evaluate r'.context tokens
  have hrng := Engine.rng_evaluate .machine r.backend r.context tokens
  have hrng' := Engine.rng_evaluate .machine r'.backend r'.context tokens
  have hb : (r.evaluate tokens).2.backend = r₁.backend := by rw [hr]
  have hb' : (r'.evaluate tokens).2.backend = r₁'.backend := by rw [hr']
  refine ⟨_, r₁, r₁', hr, hr', Run.Ahead.alike (m := m) ⟨?_, ?_, hextends.inLine, hextends'.inLine, ?_, ?_, ?_, ?_⟩ ?_⟩
  · rw [← hb]
    exact hgenuine
  · rw [← hb']
    exact hgenuine'
  · exact hextends'.evaluated_eq (.inl hne)
  · rw [← hb, ← hb']
    exact hrng.trans (h.rng_eq.trans hrng'.symm)
  · rw [hextends.context_eq, hextends'.context_eq, h.context_eq]
  · rw [hextends.recycled_eq, hextends'.recycled_eq, h.recycled_eq]
  · exact hextends.evaluated_eq (.inl hne)

/-- **A piece is refused on both sides, and leaves them as they are, or makes them alike.** -/
theorem Run.Ahead.feed (h : r.Ahead m r') (hne : tokens ≠ [])
    (hbelow : ∀ t ∈ tokens, t.isBelow m.hyperparameters.vocab = true) :
    (∃ err, r.feed tokens = (.error err, r) ∧ r'.feed tokens = (.error err, r')) ∨
      Run.Same 0 (r.feed tokens) (r'.feed tokens) := by
  unfold Run.feed
  rw [← h.context_eq]
  by_cases hroom : r.context.capacity < r.context.position + tokens.length
  · -- a reset leaves nothing to be ahead by
    obtain ⟨b, hb, hnothing, -⟩ := h.inLine.reset
    obtain ⟨b', hb', hnothing', -⟩ := h.inLine_other.reset
    have hgenuine := h.genuine.reset
    have hgenuine' := h.genuine_other.reset
    have hreset : r.backend.reset = (.ok (), b) := hb
    have hreset' : r'.backend.reset = (.ok (), b') := hb'
    rw [hreset] at hgenuine
    rw [hreset'] at hgenuine'
    have hrng : b.rng = b'.rng := by
      rw [Engine.rng_of_reset hreset, Engine.rng_of_reset hreset', h.rng_eq]
    have halike := hgenuine.alike hgenuine' (hnothing.trans hnothing'.symm) hrng
    have hrecycled : r.recycled = 0 + r'.recycled := h.recycled_eq.trans (Nat.zero_add _).symm
    simp only [hroom, if_true]
    rcases Run.recycle_of_reset h.context_eq hrecycled hb hb' halike tokens.length with
      ⟨err, hr, hr'⟩ | ⟨answer, r₁, r₁', hr, hr', hsame⟩
    · rw [hr, hr']
      exact .inl ⟨err, rfl, rfl⟩
    · rw [hr, hr']
      cases answer with
      | error err => exact .inr ⟨_, r₁, r₁', rfl, rfl, hsame⟩
      | ok => exact .inr (hsame.evaluate tokens)
  · simp only [hroom, if_false]
    exact .inr (h.evaluate hne (Nat.not_lt.1 hroom) hbelow)

theorem Run.Ahead.feedAll {pieces : List (List Token)} (h : r.Ahead m r') (hpieces : pieces ≠ [])
    (hne : ∀ piece ∈ pieces, piece ≠ []) (hbelow : ∀ t ∈ pieces.flatten, t.isBelow m.hyperparameters.vocab = true) :
    (∃ err, r.feedAll pieces = (.error err, r) ∧ r'.feedAll pieces = (.error err, r')) ∨
      Run.Same 0 (r.feedAll pieces) (r'.feedAll pieces) := by
  cases pieces with
  | nil => exact absurd rfl hpieces
  | cons piece rest =>
    obtain ⟨hpiece, -⟩ := List.forall_mem_cons.1 hne
    rw [List.flatten_cons] at hbelow
    rw [Run.feedAll, Run.feedAll]
    rcases h.feed hpiece (List.forall_mem_append.1 hbelow).1 with ⟨err, hr, hr'⟩ | ⟨answer, r₁, r₁', hr, hr', hsame⟩
    · rw [hr, hr']
      exact .inl ⟨err, rfl, rfl⟩
    · rw [hr, hr']
      cases answer with
      | error err => exact .inr ⟨_, r₁, r₁', rfl, rfl, hsame⟩
      | ok => exact .inr (hsame.feedAll rest)

/-! ## Courses -/

/-- **Two starts take the same course**: both fail with one failure, or both begin and all they give is the same, with the
same tokens and figures after any number of calls. -/
def Start.SameCourse {σ : Type} [Backend σ] : Start σ → Start σ → Prop
  | .error (err, _), .error (err', _) => err = err'
  | .ok g, .ok g' => ∀ n, (pull n g).1 = (pull n g').1 ∧ (pull n g).2.generated = (pull n g').2.generated ∧
      (pull n g).2.stats = (pull n g').2.stats
  | _, _ => False

theorem Alike.sameCourse {g g' : Generation Engine} (h : Alike g g') : Start.SameCourse (.ok g) (.ok g') := by
  intro n
  obtain ⟨hitems, hrun, hrest⟩ := h.pull n
  refine ⟨hitems, ?_, ?_⟩
  · rw [hrest]
  · rw [hrest, stats, stats, hrun.recycled_eq, Nat.zero_add]

theorem alike_begin (h : Run.Alike 0 r r') (o : Options) (promptTokens : Nat) :
    Alike (begin r o promptTokens) (begin r' o promptTokens) := by
  refine ⟨h, ?_⟩
  unfold begin
  rw [h.context_eq]

section

variable {e e' : Engine} {c : Context} {o : Options}

theorem ahead_firstRun (he : e.Genuine .machine m) (he' : e'.Genuine .machine m) (hbegins : c.tokens <+: e.evaluated)
    (hposition : c.position = c.tokens.length) (hevaluated : e'.evaluated = c.tokens) (hrng : e'.rng = e.rng)
    (o : Options) : (firstRun e c o).Ahead m (firstRun e' c o) := by
  have hcontext : configure e c o = configure e' c o := by
    obtain ⟨s, hsession, rfl, -⟩ := he
    obtain ⟨t, hsession', hmodel, -⟩ := he'
    have hlength : Backend.contextLength e = Backend.contextLength e' := by
      show e.contextLength = e'.contextLength
      rw [Engine.contextLength_eq hsession, Engine.contextLength_eq hsession', hmodel]
    simp only [configure, hlength]
  have hrng' : (firstRun e c o).backend.rng = (firstRun e' c o).backend.rng := by
    unfold firstRun
    cases o.seed with
    | none => exact hrng.symm
    | some seed => rfl
  have hevaluated' : (firstRun e' c o).backend.evaluated = c.tokens := (evaluated_firstRun e' c o).trans hevaluated
  have hin := he
  have hin' := he'
  obtain ⟨s, hsession, rfl, hs, -⟩ := hin
  obtain ⟨t, hsession', hmodel, ht, -⟩ := hin'
  have hother : InLine t.model (firstRun e' c o) :=
    (conserves_firstRun hsession' ht (hevaluated ▸ List.prefix_rfl) hposition).toInLine
  exact ⟨he.of_session_eq (session_firstRun e c o), he'.of_session_eq (session_firstRun e' c o),
    (conserves_firstRun hsession hs hbegins hposition).toInLine, hmodel ▸ hother, hevaluated', hrng', hcontext, rfl⟩

/-- **Where something is evaluated first, or there is nothing to be ahead by, the course is the same.** -/
theorem sameCourse_of_ahead (he : e.Genuine .machine m) (he' : e'.Genuine .machine m)
    (h : (firstRun e c o).Ahead m (firstRun e' c o)) {prompt : String}
    (hprompt : o.validate ≠ .ok () ∨ m.tokenizer.encode prompt ≠ [] ∨ c.position = 0 ∨
      (firstRun e c o).backend.evaluated = c.tokens) :
    Start.SameCourse (start e c prompt o) (start e' c prompt o) := by
  obtain ⟨s, hsession, rfl, hs, -⟩ := he
  obtain ⟨t, hsession', hmodel, -, -⟩ := he'
  have hcapacity : Backend.contextLength e = s.model.hyperparameters.context := Engine.contextLength_eq hsession
  have hcapacity' : Backend.contextLength e' = t.model.hyperparameters.context := Engine.contextLength_eq hsession'
  have hbelow := isBelow_encode_of_valid hs.model prompt
  rw [start_eq, start_eq, prepare_eq hsession, prepare_eq hsession', tokenize_firstRun hsession,
    tokenize_firstRun hsession', hcapacity, hcapacity', hmodel]
  generalize s.model.tokenizer.encode prompt = tokens at hprompt hbelow ⊢
  cases hvalid : o.validate with
  | error err => exact rfl
  | ok =>
    simp only [Except.map]
    by_cases hnothing : tokens.isEmpty = true ∧ c.position = 0
    · simp only [hnothing]
      exact rfl
    rw [if_neg hnothing, if_neg hnothing]
    by_cases hover : s.model.hyperparameters.context < c.position + tokens.length ∧ o.erase.isNone = true
    · rw [if_pos hover, if_pos hover]
      exact rfl
    rw [if_neg hover, if_neg hover]
    by_cases hnil : tokens = []
    · -- nothing is evaluated, so the engines have to be alike already
      subst hnil
      have hevaluated : (firstRun e c o).backend.evaluated = c.tokens := by
        rcases hprompt with hinvalid | hne | hzero | hevaluated
        · exact absurd hvalid hinvalid
        · exact absurd rfl hne
        · exact absurd ⟨rfl, hzero⟩ hnothing
        · exact hevaluated
      rw [chunks]
      exact (alike_begin (h.alike hevaluated) o _).sameCourse
    · have hflatten := flatten_chunks o.batch tokens
      have hpieces : chunks o.batch tokens ≠ [] := by
        intro hchunks
        rw [hchunks] at hflatten
        exact hnil hflatten.symm
      rcases h.feedAll hpieces (ne_nil_of_mem_chunks o.batch tokens) (by rwa [hflatten]) with
        ⟨err, hr, hr'⟩ | ⟨answer, r₁, r₁', hr, hr', hsame⟩
      · rw [hr, hr']
        exact rfl
      · rw [hr, hr']
        cases answer with
        | error err => exact rfl
        | ok => exact (alike_begin hsame o _).sameCourse

/-- **When a generation goes on from exactly what its context holds.**  Let an engine have evaluated the tokens of a
context and possibly more, and another one over the same model, with the same generator, these tokens alone.  The course
of a generation is the same with both, failures included, if the prompt has a token, the context holds none, or the engine
evaluated no more; also if the options are refused.  In the case that is left nothing is evaluated before the first token
is drawn: both start, and the engine draws from the logits of all it evaluated, the other one from those of the context's
history. -/
theorem sameCourse_start (he : Engine.Derived .machine m e) (he' : Engine.Derived .machine m e')
    (hbegins : c.tokens <+: e.evaluated) (hposition : c.position = c.tokens.length) (hevaluated : e'.evaluated = c.tokens)
    (hrng : e'.rng = e.rng) (prompt : String) (o : Options) :
    let draw := fun history => ((configure e c o).sampling.draw
      (Decoder.Uncached.logits .machine m.hyperparameters m.weights history) (configure e c o).window
      (firstRun e c o).backend.rng).1
    (o.validate ≠ .ok () ∨ m.tokenizer.encode prompt ≠ [] ∨ c.tokens = [] ∨ e.evaluated = c.tokens →
      Start.SameCourse (start e c prompt o) (start e' c prompt o)) ∧
    (o.validate = .ok () → m.tokenizer.encode prompt = [] → c.tokens ≠ [] → ∃ g g', start e c prompt o = .ok g ∧
      start e' c prompt o = .ok g' ∧ (Backend.sample g.run.backend g.run.context).1 = draw e.evaluated ∧
      (Backend.sample g'.run.backend g'.run.context).1 = draw c.tokens) := by
  have hgenuine := Engine.genuine_of_derived he
  have hgenuine' := Engine.genuine_of_derived he'
  have hahead := ahead_firstRun hgenuine hgenuine' hbegins hposition hevaluated hrng o
  have hfirst : (firstRun e c o).backend.evaluated = e.evaluated := evaluated_firstRun e c o
  intro draw
  refine ⟨fun hprompt => sameCourse_of_ahead hgenuine hgenuine' hahead ?_, fun hvalid hnil hne => ?_⟩
  · rwa [hposition, List.length_eq_zero_iff, hfirst]
  · have hheld : ¬c.position = 0 := by rwa [hposition, List.length_eq_zero_iff]
    have hroom : c.position ≤ m.hyperparameters.context := hahead.inLine.position_le
    have hawake : e.evaluated ≠ [] := by
      intro hnothing
      rw [hnothing] at hbegins
      exact hne (List.prefix_nil.1 hbegins)
    have hstart : ∀ {a : Engine}, a.Genuine .machine m → start a c prompt o = .ok (begin (firstRun a c o) o 0) := by
      rintro a ⟨s, hsession, rfl, -⟩
      refine (start_eq_ok_iff hsession).2 ⟨hvalid, fun h => hheld h.2, ?_, firstRun a c o, ?_, ?_⟩
      · rw [hnil]
        exact fun h => Nat.not_lt.2 hroom h.1
      · rw [hnil, chunks]
        rfl
      · rw [hnil]
        rfl
    refine ⟨_, _, hstart hgenuine, hstart hgenuine', ?_, ?_⟩
    · have hsample := hahead.genuine.sample_eq (hfirst ▸ hawake) (configure e c o)
      rw [hfirst] at hsample
      exact hsample
    · have hother := hahead.evaluated_eq
      have hsample := hahead.genuine_other.sample_eq (hother ▸ hne) (configure e' c o)
      rw [hother, ← hahead.rng_eq] at hsample
      have hcontext : configure e c o = configure e' c o := hahead.context_eq
      rw [← hcontext] at hsample
      exact hsample

end

/-- A context of the smallest model went back from two tokens to one, and goes on without a prompt. -/
theorem sameCourse_start_smallest : ∃ (m : Model) (e e' : Engine) (g g' : Generation Engine),
    e.evaluated = [.ofIndex 1, .ofIndex 1] ∧ e'.evaluated = oneHeld.tokens ∧
    start e oneHeld "" .default = .ok g ∧ start e' oneHeld "" .default = .ok g' ∧
    (Backend.sample g.run.backend g.run.context).1 = (Sampling.default.draw
      (Decoder.Uncached.logits .machine m.hyperparameters m.weights [.ofIndex 1, .ofIndex 1]) [.ofIndex 1] ⟨1⟩).1 ∧
    (Backend.sample g'.run.backend g'.run.context).1 = (Sampling.default.draw
      (Decoder.Uncached.logits .machine m.hyperparameters m.weights [.ofIndex 1]) [.ofIndex 1] ⟨1⟩).1 := by
  obtain ⟨m, -, hderived⟩ := Decoder.exists_derived_smallest
  obtain ⟨e, he, hevaluated, hrng⟩ := hderived [.ofIndex 1, .ofIndex 1] (by decide) (by decide)
  obtain ⟨e', he', hevaluated', hrng'⟩ := hderived [.ofIndex 1] (by decide) (by decide)
  obtain ⟨-, hempty⟩ := sameCourse_start (c := oneHeld) he he' (hevaluated ▸ ⟨[.ofIndex 1], rfl⟩) rfl hevaluated'
    (hrng'.trans hrng.symm) "" .default
  obtain ⟨s, -, rfl, hs, -⟩ := Engine.genuine_of_derived he
  obtain ⟨g, g', hstart, hstart', hdraw, hdraw'⟩ := hempty rfl (encode_empty hs.model) (List.cons_ne_nil _ _)
  have hseed : (firstRun e oneHeld .default).backend.rng = ⟨1⟩ := hrng
  rw [hseed, hevaluated] at hdraw
  rw [hseed] at hdraw'
  exact ⟨_, e, e', g, g', hevaluated, hevaluated', hstart, hstart', hdraw, hdraw'⟩

end Generation
end CausalLM
