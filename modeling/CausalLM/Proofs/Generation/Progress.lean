import CausalLM.Proofs.Generation.Conservation
import CausalLM.Proofs.Generation.Course
import CausalLM.Proofs.Outcome
import CausalLM.Proofs.Tokenizer.Indices
/-!
# Proofs.Generation.Progress — a generation that started goes on to its end

Past the checks of `start` nothing refuses the prompt (`start_eq_ok_iff`), and a generation that started keeps the account
of its run, something to sample from, and room for one more token while its budget lasts (`Kept`).  So no call of `next`
fails (`Kept.next`), and after more calls than the budget the generation has ended.
-/
namespace CausalLM

open Decoder (Engine Session Model)

namespace Generation

/-! ## Starting -/

/-- The run a generation starts with: the generator seeded if the options say so, and the context set up. -/
def firstRun {σ : Type} [Backend σ] (b : σ) (c : Context) (o : Options) : Run σ where
  backend := match o.seed with
    | some seed => Backend.setSeed b (UInt64.ofNat seed)
    | none => b
  context := configure b c o
  recycled := 0

/-- **A start in terms of its first run.** -/
theorem start_eq {σ : Type} [Backend σ] (b : σ) (c : Context) (prompt : String) (o : Options) :
    start b c prompt o = match prepare b c o with
      | .error e => .error (.error e, ⟨b, c, 0⟩)
      | .ok _ => match Backend.tokenize (firstRun b c o).backend (configure b c o) prompt with
        | .error e => .error (.error e, firstRun b c o)
        | .ok tokens =>
          if tokens.isEmpty ∧ c.position = 0 then .error (.error (.config "prompt produced no tokens"), firstRun b c o)
          else if Backend.contextLength b < c.position + tokens.length ∧ o.erase.isNone then
            .error (.error (.contextOverflow c.position tokens.length (Backend.contextLength b)), firstRun b c o)
          else match (firstRun b c o).feedAll (chunks o.batch tokens) with
            | (.error e, r) => .error (e, r)
            | (.ok (), r) => .ok (begin r o tokens.length) := by
  unfold start prepare
  cases Backend.isLoaded b with
  | false => rfl
  | true => cases o.validate <;> rfl

section

variable {e : Engine} {s : Session} {c : Context} {o : Options} {g : Generation Engine} {prompt : String}

theorem session_firstRun (e : Engine) (c : Context) (o : Options) :
    (firstRun e c o).backend.session = e.session := by
  unfold firstRun
  cases o.seed <;> rfl

theorem evaluated_firstRun (e : Engine) (c : Context) (o : Options) :
    (firstRun e c o).backend.evaluated = e.evaluated := by
  unfold firstRun
  cases o.seed <;> rfl

/-- With a model only the options can be refused. -/
theorem prepare_eq (hsession : e.session = some s) (c : Context) (o : Options) :
    prepare e c o = o.validate.map fun _ => configure e c o := by
  have hloaded : Backend.isLoaded e = true := Engine.isLoaded_of_session hsession
  unfold prepare
  rw [hloaded]
  cases o.validate <;> rfl

theorem tokenize_firstRun (hsession : e.session = some s) (c : Context) (o : Options) (prompt : String) :
    Backend.tokenize (firstRun e c o).backend (configure e c o) prompt = .ok (s.model.tokenizer.encode prompt) := by
  change (firstRun e c o).backend.tokenize prompt = _
  rw [Engine.tokenize, session_firstRun, hsession]

/-- **When an engine with a model starts**, and what it starts with. -/
theorem start_eq_ok_iff (hsession : e.session = some s) : start e c prompt o = .ok g ↔ o.validate = .ok () ∧
    ¬(s.model.tokenizer.encode prompt = [] ∧ c.position = 0) ∧
    ¬(s.model.hyperparameters.context < c.position + (s.model.tokenizer.encode prompt).length ∧ o.erase = none) ∧
    ∃ r, (firstRun e c o).feedAll (chunks o.batch (s.model.tokenizer.encode prompt)) = (.ok (), r) ∧
      g = begin r o (s.model.tokenizer.encode prompt).length := by
  have hcapacity : Backend.contextLength e = s.model.hyperparameters.context := Engine.contextLength_eq hsession
  rw [start_eq, prepare_eq hsession, tokenize_firstRun hsession, hcapacity]
  generalize s.model.tokenizer.encode prompt = tokens
  cases o.validate with
  | error err => simp [Except.map]
  | ok =>
    simp only [Except.map, guard_eq_ok_iff, List.isEmpty_iff, Option.isNone_iff_eq_none, true_and]
    rcases (firstRun e c o).feedAll (chunks o.batch tokens) with ⟨err | _, r⟩
    · simp
    · simp [eq_comm]

/-- **When an engine with a model goes on**, and what it goes on with. -/
theorem resume_eq_ok_iff (hsession : e.session = some s) : resume e c o = .ok g ↔ o.validate = .ok () ∧
    c.position = e.evaluated.length ∧ g = begin ⟨e, configure e c o, 0⟩ o 0 := by
  have hposition : (configure e c o).position = (Backend.evaluated e).length ↔ c.position = e.evaluated.length := Iff.rfl
  unfold resume
  rw [prepare_eq hsession]
  cases o.validate with
  | error err => simp [Except.map]
  | ok =>
    simp only [Except.map, guard_eq_ok_iff, ne_eq, not_not, hposition, true_and]
    simp [eq_comm]

theorem isBelow_encode_of_valid {m : Model} (hm : m.Valid) (text : String) :
    ∀ t ∈ m.tokenizer.encode text, t.isBelow m.hyperparameters.vocab = true := by
  obtain ⟨v, htokenizer, hsize⟩ := hm.tokenizer
  have hids : v.size ≤ 2 ^ 31 := by
    rw [hsize]
    exact Nat.le_trans hm.vocab_le (by decide)
  rw [htokenizer, ← hsize]
  exact Tokenizer.isBelow_encode hids text

theorem conserves_configure (hsession : e.session = some s) (hs : s.Sound) (hbegins : c.tokens <+: e.evaluated)
    (hposition : c.position = c.tokens.length) :
    Conserves s.model o.erase c.tokens [] ⟨e, configure e c o, 0⟩ := by
  refine ⟨⟨⟨s, hsession, hs, rfl⟩, hbegins, hposition, Engine.contextLength_eq hsession⟩, rfl, Nat.zero_le _, ?_,
    fun h => absurd rfl h, fun _ => rfl⟩
  exact (List.append_nil _).symm

theorem conserves_firstRun (hsession : e.session = some s) (hs : s.Sound) (hbegins : c.tokens <+: e.evaluated)
    (hposition : c.position = c.tokens.length) : Conserves s.model o.erase c.tokens [] (firstRun e c o) :=
  (conserves_configure hsession hs hbegins hposition).of_session_eq (session_firstRun e c o)

/-! ## Going on -/

/-- **What a generation keeps while it goes on**: the account of its run over the prompt and the tokens generated,
something to sample from, a budget that ends with the context where nothing may be dropped, and no failure. -/
structure Kept (m : Model) (erase : Option Single) (held prompt : List Token) (g : Generation Engine) : Prop where
  run : Conserves m erase held (prompt ++ g.generated) g.run
  awake : g.run.backend.evaluated ≠ []
  budget_le : erase = none → (held ++ prompt).length + g.budget ≤ m.hyperparameters.context
  unfailed : g.stop ≠ some .error
  promptTokens_eq : g.promptTokens = prompt.length
  tallied : Tallied g

/-- The budget a generation begins with ends with the context where nothing may be dropped. -/
theorem kept_begin {m : Model} {held tokens : List Token} {r : Run Engine} (h : Conserves m o.erase held tokens r)
    (hawake : r.backend.evaluated ≠ []) : Kept m o.erase held tokens (begin r o tokens.length) := by
  refine ⟨?_, hawake, fun hnone => ?_, (fun h => by cases h), rfl, tallied_begin r o _⟩
  · change Conserves _ _ _ (tokens ++ []) r
    rwa [List.append_nil]
  · have hadd := h.position_add
    rw [h.whole hnone, Nat.add_zero] at hadd
    have hposition_le := h.toInLine.position_le
    have hbudget : (begin r o tokens.length).budget = min o.maxTokens r.context.remaining := by
      change (if r.context.erase.isSome = true then _ else _) = _
      rw [h.erase_eq, hnone]
      rfl
    rw [hbudget, Context.remaining, h.capacity_eq]
    omega

/-- **A generation that started keeps the account.** -/
theorem kept_of_start (hsession : e.session = some s) (hs : s.Sound) (hbegins : c.tokens <+: e.evaluated)
    (hposition : c.position = c.tokens.length) (hstart : start e c prompt o = .ok g) :
    Kept s.model o.erase c.tokens (s.model.tokenizer.encode prompt) g := by
  obtain ⟨-, hnonempty, -, r, hfeed, rfl⟩ := (start_eq_ok_iff hsession).1 hstart
  have hbelow := isBelow_encode_of_valid hs.model prompt
  generalize s.model.tokenizer.encode prompt = tokens at hnonempty hfeed hbelow ⊢
  have hflatten := flatten_chunks o.batch tokens
  obtain ⟨hall, hawake⟩ := (conserves_firstRun hsession hs hbegins hposition).feedAll
    (ne_nil_of_mem_chunks o.batch tokens) (by rwa [hflatten]) hfeed
  rw [hflatten, List.nil_append] at hall
  refine kept_begin hall (hawake ?_)
  by_cases hnil : tokens = []
  · -- then the context holds something, and so does the engine
    have hheld : c.tokens ≠ [] := fun h => hnonempty ⟨hnil, by rw [hposition, h]; rfl⟩
    rw [evaluated_firstRun]
    exact .inr fun h => hheld (List.prefix_nil.1 (h ▸ hbegins))
  · refine .inl fun h => hnil ?_
    rw [← hflatten, h]
    rfl

variable {m : Model} {erase : Option Single} {held tokens : List Token}

/-- **While the budget lasts one more token is admitted.** -/
theorem Kept.admits (h : Kept m erase held tokens g) (hbudget : g.count < g.budget) : g.run.Admits 1 := by
  have hcount := h.tallied.count_eq
  have hcapacity := h.run.capacity_eq
  obtain ⟨s, -, hs, rfl⟩ := h.run.session
  cases herase : erase with
  | none =>
    have hadd := h.run.position_add
    have hle := h.budget_le herase
    rw [h.run.whole herase, Nat.add_zero, ← List.append_assoc, List.length_append] at hadd
    refine .inl ?_
    omega
  | some fraction =>
    have hpos := hs.model.sizes.pos ("n_ctx", s.model.hyperparameters.context) (by simp [Hyperparameters.sizes])
    refine .inr ⟨?_, ?_⟩
    · rw [h.run.erase_eq, herase]
      rfl
    · rw [hcapacity]
      exact hpos

/-- **There always is something to sample from.** -/
theorem Kept.exists_sample (h : Kept m erase held tokens g) :
    ∃ t, (Backend.sample g.run.backend g.run.context).1 = .ok t ∧ t.isBelow m.hyperparameters.vocab = true := by
  obtain ⟨s, hsession, hs, rfl⟩ := h.run.session
  have hne : s.evaluation.tokens ≠ [] := by
    rw [← Engine.evaluated_eq hsession]
    exact h.awake
  exact Engine.exists_sample hsession hs hne g.run.context

/-- **A step while the budget lasts does not fail**, and keeps the account with the token it gives. -/
theorem Kept.step (h : Kept m erase held tokens g) (hbudget : g.count < g.budget) {answer : Except Failure (Option Token)}
    {r : Run Engine} (hstep : g.run.step = (answer, r)) : ∃ given : Option Token, answer = .ok given ∧
      Conserves m erase held (tokens ++ (g.generated ++ given.toList)) r ∧ r.backend.evaluated ≠ [] := by
  obtain ⟨r', hawake, ⟨hstep', hrun⟩ | ⟨t, hstep', hrun⟩⟩ := h.run.step h.awake (h.admits hbudget)
  · rw [hstep] at hstep'
    cases hstep'
    exact ⟨none, rfl, by rwa [Option.toList_none, List.append_nil], hawake⟩
  · rw [hstep] at hstep'
    cases hstep'
    rw [List.append_assoc] at hrun
    exact ⟨some t, rfl, hrun, hawake⟩

theorem Kept.finish (h : Kept m erase held tokens g) {r : Run Engine} (hr : Conserves m erase held (tokens ++ g.generated) r)
    (hawake : r.backend.evaluated ≠ []) {reason : StopReason} (hreason : reason ≠ .error) :
    Kept m erase held tokens (({ g with run := r } : Generation Engine).finish reason).2 := by
  have hstop : some reason ≠ some StopReason.error := fun h => hreason (Option.some.inj h)
  unfold Generation.finish
  split
  · exact ⟨hr, hawake, h.budget_le, hstop, h.promptTokens_eq, ⟨h.tallied.count_eq, rfl⟩⟩
  · exact ⟨hr, hawake, h.budget_le, hstop, h.promptTokens_eq, ⟨h.tallied.count_eq, rfl⟩⟩

theorem Kept.accept (h : Kept m erase held tokens g) (hbudget : g.count < g.budget) {t : Token} {r : Run Engine}
    (hstep : g.run.step = (.ok (some t), r)) :
    Kept m erase held tokens (({ g with run := r } : Generation Engine).accept t).2 := by
  obtain ⟨given, hgiven, hrun, hawake⟩ := h.step hbudget hstep
  cases hgiven
  exact ⟨hrun, hawake, h.budget_le, h.unfailed, h.promptTokens_eq, (h.tallied.step r).accept t⟩

/-- **A call of `next` keeps the account and does not fail.** -/
theorem Kept.next (h : Kept m erase held tokens g) :
    Kept m erase held tokens g.next.2 ∧ ∀ err, g.next.1 ≠ some (.error err) := by
  fun_induction Generation.next g with
  | case1 g hd =>
    refine ⟨h, fun err herr => ?_⟩
    cases herr
  | case2 g hd hbudget =>
    refine ⟨h.finish h.run h.awake ?_, fun err => ok_finish g _ err⟩
    split <;> simp
  | case3 g hd hbudget e run hstep =>
    obtain ⟨given, hgiven, -⟩ := h.step (Nat.not_le.1 hbudget) hstep
    cases hgiven
  | case4 g hd hbudget run hstep =>
    obtain ⟨given, hgiven, hrun, hawake⟩ := h.step (Nat.not_le.1 hbudget) hstep
    cases hgiven
    rw [Option.toList_none, List.append_nil] at hrun
    exact ⟨h.finish hrun hawake (by simp), fun err => ok_finish _ _ err⟩
  | case5 g hd hbudget t run hstep taken htext ih => exact ih (h.accept (Nat.not_le.1 hbudget) hstep)
  | case6 g hd hbudget t run hstep htext =>
    refine ⟨h.accept (Nat.not_le.1 hbudget) hstep, fun err herr => ?_⟩
    cases herr

theorem Kept.pull : ∀ (n : Nat) {g : Generation Engine}, Kept m erase held tokens g →
    Kept m erase held tokens (pull n g).2 ∧ ∀ err, some (.error err) ∉ (pull n g).1
  | 0, _, h => ⟨h, fun _ herr => by cases herr⟩
  | n + 1, g, h => by
    obtain ⟨hnext, hok⟩ := h.next
    obtain ⟨hrest, hoks⟩ := Kept.pull n hnext
    refine ⟨hrest, fun err herr => ?_⟩
    rcases List.mem_cons.1 herr with herr | herr
    · exact hok err herr.symm
    · exact hoks err herr

end

/-! ## From the start -/

/-- **No token is lost or doubled.**  From a context in line with a reachable engine, when a generation started and after
every later call of `next`, the context holds the last of the tokens it held at first, those of the prompt and those
generated, in this order and without a gap, as many as were not recycled; its position is behind them and within the
context.  Once anything was evaluated the engine holds the same tokens.  And wherever a run recycles, it leaves room for
what it is about to evaluate, whatever the share of the history is rounded to. -/
theorem conserved_pull {e : Engine} {s : Session} {c : Context} {prompt : String} {o : Options} {g : Generation Engine}
    (h : Engine.Reachable .machine e) (hsession : e.session = some s) (hbegins : c.tokens <+: e.evaluated)
    (hposition : c.position = c.tokens.length) (hstart : start e c prompt o = .ok g) :
    ∃ tokens, e.tokenize prompt = .ok tokens ∧
      (∀ n, let g' := (Generation.pull n g).2
        InLine s.model g'.run ∧
        g'.stats.promptTokens = tokens.length ∧
        g'.stats.recycled ≤ c.tokens.length + g'.stats.promptTokens + g'.stats.generatedTokens ∧
        g'.run.context.tokens = (c.tokens ++ tokens ++ g'.generated).rtake
          (c.tokens.length + g'.stats.promptTokens + g'.stats.generatedTokens - g'.stats.recycled) ∧
        g'.run.context.position = g'.run.context.tokens.length ∧
        g'.run.context.position ≤ s.model.hyperparameters.context ∧
        (tokens ++ g'.generated ≠ [] → g'.run.context.tokens = g'.run.backend.evaluated)) ∧
      ∀ (r r' : Run Engine) (incoming : Nat), InLine s.model r → r.recycle incoming = (.ok (), r') →
        r'.context.position + incoming ≤ r'.context.capacity := by
  have hs := Engine.sound_of_reachable h s hsession
  have hkept := kept_of_start hsession hs hbegins hposition hstart
  refine ⟨s.model.tokenizer.encode prompt, ?_, fun n => ?_, fun r r' incoming hr hrecycle => ?_⟩
  · rw [Engine.tokenize, hsession]
  · obtain ⟨hn, -⟩ := hkept.pull n
    have hrun := hn.run
    have hcount := hn.promptTokens_eq
    have hle := hrun.recycled_le
    have htokens := hrun.tokens_eq_rtake
    rw [List.length_append, List.length_append, ← Nat.add_assoc] at hle
    rw [List.length_append, ← Nat.add_assoc, ← List.append_assoc] at htokens
    have hgenerated := hn.tallied.count_eq
    rw [← hcount, ← hgenerated] at hle htokens
    exact ⟨hrun.toInLine, hcount, hle, htokens, hrun.position_eq, hrun.toInLine.position_le,
      fun hne => (hrun.evaluated_eq hne).symm⟩
  · obtain ⟨herase, hfits⟩ := of_recycle_eq_ok hrecycle
    obtain ⟨fraction, hfraction⟩ := Option.isSome_iff_exists.1 herase
    obtain ⟨r'', dropped, hrecycle', hrecycled⟩ := hr.recycle hfraction hfits
    rw [hrecycle] at hrecycle'
    cases hrecycle'
    exact hrecycled.room

/-! ### A history to go on from -/

theorem encode_empty {m : Model} (hm : m.Valid) : m.tokenizer.encode "" = [] := by
  obtain ⟨v, hv, -⟩ := hm.tokenizer
  rw [hv]
  exact Tokenizer.encode_ofVocabulary_empty v

/-- A context of the smallest model that holds a token. -/
def oneHeld : Context := { Context.new 2 with tokens := [.ofIndex 1], position := 1 }

/-- Three tokens, with half of a full history dropped. -/
def dropHalf : Options := { Options.default with maxTokens := 3, erase := some .half }

/-- An engine that evaluated a token goes on from it without a prompt. -/
theorem exists_start_smallest {o : Options} (hvalid : o.validate = .ok ()) : ∃ e s, Engine.Reachable .machine e ∧
    e.session = some s ∧ s.model.hyperparameters = Decoder.smallestSizes ∧ e.evaluated = [.ofIndex 1] ∧
    start e oneHeld "" o = .ok (begin (firstRun e oneHeld o) o 0) := by
  obtain ⟨m, v, hsizes, htokens, hload⟩ := Decoder.load_smallest
  obtain ⟨v', hsession, htokens'⟩ := Decoder.evaluate_smallest .machine hsizes htokens (hload 1).2
  have hreach : Engine.Reachable .machine
      ((Engine.smallest 1).evaluate .machine (Context.new 2) [.ofIndex 1]).2.1 :=
    .evaluate (Decoder.reachable_smallest _ 1) _ _
  generalize ((Engine.smallest 1).evaluate .machine (Context.new 2) [.ofIndex 1]).2.1 = e at hsession hreach
  have hempty := encode_empty (Engine.sound_of_reachable hreach _ hsession).model
  refine ⟨e, _, hreach, hsession, hsizes, (Engine.evaluated_eq hsession).trans htokens', ?_⟩
  refine (start_eq_ok_iff hsession).2 ⟨hvalid, ?_, ?_, firstRun e oneHeld o, ?_, ?_⟩
  · rintro ⟨-, h⟩
    cases h
  · rw [hempty, hsizes]
    rintro ⟨h, -⟩
    exact absurd h (by decide)
  · rw [hempty, chunks]
    rfl
  · rw [hempty]
    rfl

theorem conserved_pull_smallest : ∃ (e : Engine) (g : Generation Engine), start e oneHeld "" dropHalf = .ok g ∧
    let g' := (Generation.pull 5 g).2
    g'.run.context.tokens = (.ofIndex 1 :: g'.generated).rtake (1 + g'.stats.generatedTokens - g'.stats.recycled) ∧
    g'.run.context.position = g'.run.context.tokens.length ∧ g'.run.context.position ≤ 2 := by
  obtain ⟨e, s, hreach, hsession, hsizes, hevaluated, hstart⟩ :=
    exists_start_smallest (show dropHalf.validate = .ok () from rfl)
  have hbegins : oneHeld.tokens <+: e.evaluated := by
    rw [hevaluated]
    exact List.prefix_rfl
  obtain ⟨tokens, htokenize, hruns, -⟩ := conserved_pull hreach hsession hbegins rfl hstart
  obtain ⟨-, hcount, -, htokens, hposition, hle, -⟩ := hruns 5
  rw [Engine.tokenize, hsession] at htokenize
  cases htokenize
  rw [encode_empty (Engine.sound_of_reachable hreach s hsession).model] at hcount htokens
  rw [hsizes] at hle
  rw [hcount] at htokens
  exact ⟨e, _, hstart, htokens, hposition, hle⟩

/-- **A generation that started never fails.**  From a context in line with a reachable engine, without a share of the
history to drop, it starts exactly if the options are in range, there is something to go on from and the prompt fits
behind it.  Once it started no call of `next` gives an error or panics: there always are logits to sample a known token
from, and while the budget lasts a token more is admitted, in the room that is left or in the room that recycling makes.
And it comes to its end, for another reason than a failure. -/
theorem unfailing_pull {e : Engine} {s : Session} {c : Context} (h : Engine.Reachable .machine e)
    (hsession : e.session = some s) (hbegins : c.tokens <+: e.evaluated) (hposition : c.position = c.tokens.length)
    (prompt : String) (o : Options) :
    ∃ tokens, e.tokenize prompt = .ok tokens ∧
      (o.erase = none → ((∃ g, start e c prompt o = .ok g) ↔ o.validate = .ok () ∧ (tokens ≠ [] ∨ c.tokens ≠ []) ∧
        c.position + tokens.length ≤ s.model.hyperparameters.context)) ∧
      ∀ g, start e c prompt o = .ok g →
        (∀ n, let (items, g') := Generation.pull n g
          (∀ err, some (.error err) ∉ items) ∧
          (∃ t, (Backend.sample g'.run.backend g'.run.context).1 = .ok t ∧
            t.isBelow s.model.hyperparameters.vocab = true) ∧
          (g'.stats.generatedTokens < g'.budget → g'.run.Admits 1)) ∧
        ∃ n reason, let g' := (Generation.pull n g).2
          g'.next.1 = none ∧ g'.stop = some reason ∧ reason ≠ .error := by
  have hs := Engine.sound_of_reachable h s hsession
  refine ⟨s.model.tokenizer.encode prompt, ?_, fun hnone => ?_, fun g hstart => ⟨fun n => ?_, ?_⟩⟩
  · rw [Engine.tokenize, hsession]
  · constructor
    · rintro ⟨g, hstart⟩
      obtain ⟨hvalid, hnonempty, hroom, -⟩ := (start_eq_ok_iff hsession).1 hstart
      refine ⟨hvalid, ?_, Nat.not_lt.1 fun hover => hroom ⟨hover, hnone⟩⟩
      by_cases hnil : s.model.tokenizer.encode prompt = []
      · refine .inr fun hheld => hnonempty ⟨hnil, ?_⟩
        rw [hposition, hheld]
        rfl
      · exact .inl hnil
    · rintro ⟨hvalid, hnonempty, hfits⟩
      have hfirst : Conserves s.model o.erase c.tokens [] (firstRun e c o) :=
        conserves_firstRun hsession hs hbegins hposition
      have hflatten := flatten_chunks o.batch (s.model.tokenizer.encode prompt)
      rw [hnone] at hfirst
      obtain ⟨r, hfeed⟩ := hfirst.exists_feedAll (ne_nil_of_mem_chunks o.batch (s.model.tokenizer.encode prompt))
        (by
          rw [hflatten]
          exact isBelow_encode_of_valid hs.model prompt)
        (by rwa [hflatten, List.append_nil, ← hposition])
      refine ⟨_, (start_eq_ok_iff hsession).2 ⟨hvalid, ?_, fun hover => absurd hfits (Nat.not_le.2 hover.1), r, hfeed, rfl⟩⟩
      rintro ⟨hnil, hzero⟩
      rw [hposition, List.length_eq_zero_iff] at hzero
      exact hnonempty.elim (fun h => h hnil) (fun h => h hzero)
  · obtain ⟨hn, hok⟩ := (kept_of_start hsession hs hbegins hposition hstart).pull n
    exact ⟨hok, hn.exists_sample, hn.admits⟩
  · have hdone : (Generation.pull (g.budget + 1) g).2.isDone = true := by
      obtain ⟨-, hok⟩ := (kept_of_start hsession hs hbegins hposition hstart).pull (g.budget + 1)
      obtain ⟨r, count, rfl⟩ := eq_begin_of_start hstart
      exact isDone_pull (Nat.zero_le _) (by change _ < 0 + _; omega) (hok .panic)
    obtain ⟨hkept, -⟩ := (kept_of_start hsession hs hbegins hposition hstart).pull (g.budget + 1)
    obtain ⟨reason, hreason⟩ := Option.isSome_iff_exists.1 (hkept.tallied.done_eq ▸ hdone)
    refine ⟨g.budget + 1, reason, ?_, hreason, fun herror => hkept.unfailed ?_⟩
    · rw [next_of_isDone hdone]
    · rw [hreason, herror]

/-- A history goes on to its end; with nothing held and nothing to add there is nothing to go on from. -/
theorem unfailing_pull_smallest : ∃ (e : Engine) (g : Generation Engine), start e oneHeld "" dropHalf = .ok g ∧
    (∃ n reason, (Generation.pull n g).2.next.1 = none ∧ (Generation.pull n g).2.stop = some reason ∧ reason ≠ .error) ∧
    ¬∃ g', start e (Context.new 2) "" Options.default = .ok g' := by
  obtain ⟨e, s, hreach, hsession, -, hevaluated, hstart⟩ :=
    exists_start_smallest (show dropHalf.validate = .ok () from rfl)
  have hbegins : oneHeld.tokens <+: e.evaluated := by
    rw [hevaluated]
    exact List.prefix_rfl
  obtain ⟨-, -, -, hruns⟩ := unfailing_pull hreach hsession hbegins rfl "" dropHalf
  obtain ⟨tokens, htokenize, hstarts, -⟩ :=
    unfailing_pull hreach hsession (c := Context.new 2) List.nil_prefix rfl "" Options.default
  rw [Engine.tokenize, hsession] at htokenize
  cases htokenize
  refine ⟨e, _, hstart, (hruns _ hstart).2, fun hsome => ?_⟩
  obtain ⟨-, hnonempty, -⟩ := (hstarts rfl).1 hsome
  rw [encode_empty (Engine.sound_of_reachable hreach s hsession).model] at hnonempty
  exact hnonempty.elim (fun h => h rfl) (fun h => h rfl)

end Generation
end CausalLM
