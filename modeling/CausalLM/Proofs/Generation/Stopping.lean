import CausalLM.Proofs.Generation.Metering
import CausalLM.Proofs.Generation.Pausing
/-!
# Proofs.Generation.Stopping — why a generation stops

A recorded backend answers as the one inside it and keeps the tokens that were drawn from it (`Recorded`).  What was
drawn is what was generated, and behind it the token that ended the text if one did; without one a generation that ends
well has used up its budget (`Reasons`).  The reason it gives then tells whether the context is full at that point.
Where nothing may be dropped, that is whether the room in the context has set the budget.  Where something may be
dropped, a context that happens to be full then is given as the reason, though it has not ended the generation
(`contextFull_solo`).
-/
namespace CausalLM

open Decoder (Engine Session Model)

/-! ## What is drawn -/

/-- **A backend with the tokens that were drawn from it**, the last one first. -/
structure Recorded (σ : Type) where
  backend : σ
  drawn : List Token

namespace Recorded

variable {σ : Type} [Backend σ]

instance : Backend (Recorded σ) where
  architecture m := Backend.architecture m.backend
  isLoaded m := Backend.isLoaded m.backend
  contextLength m := Backend.contextLength m.backend
  endTokens m := Backend.endTokens m.backend
  tokenize m c text := Backend.tokenize m.backend c text
  tokenBytes m t := Backend.tokenBytes m.backend t
  evaluate m c l :=
    let (answer, b, c) := Backend.evaluate m.backend c l
    (answer, ⟨b, m.drawn⟩, c)
  sample m c :=
    let (answer, b) := Backend.sample m.backend c
    (answer, ⟨b, answer.toOption.toList ++ m.drawn⟩)
  reset m :=
    let (answer, b) := Backend.reset m.backend
    (answer, ⟨b, m.drawn⟩)
  evaluated m := Backend.evaluated m.backend
  setSeed m seed := ⟨Backend.setSeed m.backend seed, m.drawn⟩
  stateBytes m := Backend.stateBytes m.backend
  save m buffer := Backend.save m.backend buffer
  restore m buffer :=
    let (answer, b) := Backend.restore m.backend buffer
    (answer, ⟨b, m.drawn⟩)
  hyperparameters m := Backend.hyperparameters m.backend
  memoryUsage m := Backend.memoryUsage m.backend

/-- **A run cannot see the record.** -/
theorem respects : Backend.Respects (Recorded.backend : Recorded σ → σ) :=
  ⟨fun _ => rfl, fun _ _ => rfl, fun _ _ _ => rfl, fun _ _ => rfl, fun _ => rfl⟩

theorem stable {P : σ → Prop} (h : Backend.Stable P) : Backend.Stable fun m : Recorded σ => P m.backend :=
  ⟨fun m => h.evaluate m.backend, fun m => h.sample m.backend, fun m => h.reset m.backend⟩

theorem steady_drawn (drawn : List Token) : Backend.Steady fun m : Recorded σ => m.drawn = drawn :=
  ⟨fun _ _ _ h => h, fun _ h => h⟩

end Recorded

namespace Generation

variable {σ : Type}

/-- The generation over a recorded backend, with nothing on the record. -/
def recorded (g : Generation σ) : Generation (Recorded σ) := g.map (⟨·, []⟩)

section

variable [Backend σ]

/-- **The recorded generation is the generation**: it gives the same, and is the same but for the record. -/
theorem pull_recorded (n : Nat) (g : Generation σ) :
    pull n g = ((pull n g.recorded).1, (pull n g.recorded).2.map Recorded.backend) :=
  pull_map Recorded.respects n g.recorded

/-- **What a step draws**: a token that ends the text or the one it gives, unless it fails. -/
theorem drawn_of_step {r r' : Run (Recorded σ)} {answer : Except Failure (Option Token)} (h : r.step = (answer, r')) :
    (∃ e, answer = .error e) ∨
    (answer = .ok none ∧ ∃ t ∈ Backend.endTokens r'.backend, r'.backend.drawn = t :: r.backend.drawn) ∨
    ∃ t, answer = .ok (some t) ∧ r'.backend.drawn = t :: r.backend.drawn := by
  have hsample : ∀ {t : Token} {b : Recorded σ}, Backend.sample r.backend r.context = (.ok t, b) →
      b.drawn = t :: r.backend.drawn := by
    intro t b hb
    have hanswer : (Backend.sample r.backend.backend r.context).1 = .ok t := congrArg Prod.fst hb
    have hdrawn : (Backend.sample r.backend.backend r.context).1.toOption.toList ++ r.backend.drawn = b.drawn :=
      congrArg (fun answer => answer.2.drawn) hb
    rw [hanswer] at hdrawn
    exact hdrawn.symm
  rcases r.step_cases with ⟨e, b, -, hstep⟩ | ⟨t, b, hb, hend, hstep⟩ | ⟨t, b, fed, r'', hb, -, hfeed, hstep⟩
  · rw [h] at hstep
    cases hstep
    exact .inl ⟨.error e, rfl⟩
  · rw [h] at hstep
    cases hstep
    exact .inr (.inl ⟨rfl, t, hend, hsample hb⟩)
  · have hfed := Run.feed_steady (Recorded.steady_drawn _) (r := { r with backend := b }) (hsample hb) [t]
    rw [hfeed] at hfed
    rw [h] at hstep
    cases hstep
    cases fed with
    | error e => exact .inl ⟨e, rfl⟩
    | ok => exact .inr (.inr ⟨t, rfl, hfed⟩)

/-! ## What the reason says -/

/-- **What a reason to stop says of a generation**; without one it goes on. -/
def Told (ends : List Token) (g : Generation (Recorded σ)) : Option StopReason → Prop
  | none => g.run.backend.drawn = g.generated.reverse
  | some .endToken => ∃ t ∈ ends, g.run.backend.drawn = t :: g.generated.reverse
  | some .maxTokens => g.run.backend.drawn = g.generated.reverse ∧ g.budget ≤ g.count ∧ g.run.context.remaining ≠ 0
  | some .contextFull => g.run.backend.drawn = g.generated.reverse ∧ g.budget ≤ g.count ∧ g.run.context.remaining = 0
  | some .error => True

/-- **A generation stops for the reason it gives**, and no token it generated ends a text. -/
structure Reasons (ends : List Token) (g : Generation (Recorded σ)) : Prop where
  ends_eq : Backend.endTokens g.run.backend = ends
  tallied : Tallied g
  ordinary : ∀ t ∈ g.generated, t ∉ ends
  told : Told ends g g.stop

variable {ends : List Token} {g : Generation (Recorded σ)}

/-- A generation that goes on has drawn what it generated. -/
theorem Reasons.drawn_eq (h : Reasons ends g) (hd : ¬g.isDone = true) : g.run.backend.drawn = g.generated.reverse := by
  have htold := h.told
  have hdone := h.tallied.done_eq
  cases hstop : g.stop with
  | none => rwa [hstop] at htold
  | some reason =>
    rw [hstop] at hdone
    exact absurd hdone hd

theorem Reasons.finish (h : Reasons ends g) {run : Run (Recorded σ)} (hends : Backend.endTokens run.backend = ends)
    {reason : StopReason} (htold : Told ends { g with run } (some reason)) :
    Reasons ends (({ g with run } : Generation (Recorded σ)).finish reason).2 := by
  have hreason : ∀ held : Bytes,
      Reasons ends ({ g with run, held, stop := some reason, done := true } : Generation (Recorded σ)) := fun held =>
    ⟨hends, ⟨h.tallied.count_eq, rfl⟩, h.ordinary, by cases reason <;> exact htold⟩
  unfold Generation.finish
  split
  · exact hreason g.held
  · exact hreason []

theorem Reasons.accept (hb : Backend.Stable fun b : Recorded σ => Backend.endTokens b = ends) (h : Reasons ends g)
    (hd : ¬g.isDone = true) {t : Token} {run : Run (Recorded σ)} (hstep : g.run.step = (.ok (some t), run)) :
    Reasons ends (({ g with run } : Generation (Recorded σ)).accept t).2 := by
  have hends := Run.step_stable hb h.ends_eq
  rw [hstep] at hends
  have hdrawn : run.backend.drawn = t :: g.run.backend.drawn := by
    rcases drawn_of_step hstep with ⟨e, he⟩ | ⟨hnone, -⟩ | ⟨u, hu, hdrawn⟩
    · cases he
    · cases hnone
    · cases hu
      exact hdrawn
  have hstop : g.stop = none := by
    have hdone := h.tallied.done_eq
    rwa [Bool.eq_false_iff.2 hd, eq_comm, Option.isSome_eq_false_iff, Option.isNone_iff_eq_none] at hdone
  refine ⟨hends, (h.tallied.step run).accept t, fun u hu => ?_, ?_⟩
  · rcases List.mem_append.1 hu with hu | hu
    · exact h.ordinary u hu
    · rw [List.mem_singleton.1 hu]
      exact not_mem_endTokens_of_step hb h.ends_eq hstep
  · show Told ends _ g.stop
    rw [hstop]
    show run.backend.drawn = (g.generated ++ [t]).reverse
    rw [hdrawn, h.drawn_eq hd, List.reverse_append]
    rfl

/-- **A call of `next` that comes back keeps the reasons.** -/
theorem Reasons.next (hb : Backend.Stable fun b : Recorded σ => Backend.endTokens b = ends) (h : Reasons ends g)
    (hok : g.next.1 ≠ some (.error .panic)) : Reasons ends g.next.2 := by
  fun_induction Generation.next g with
  | case1 g hd => exact h
  | case2 g hd hbudget =>
    split
    · rename_i hfull
      exact h.finish h.ends_eq ⟨h.drawn_eq hd, hbudget, hfull⟩
    · rename_i hroom
      exact h.finish h.ends_eq ⟨h.drawn_eq hd, hbudget, hroom⟩
  | case3 g hd hbudget e run hstep =>
    have hends := Run.step_stable hb h.ends_eq
    rw [hstep] at hends
    cases e with
    | panic => exact absurd rfl hok
    | error e => exact ⟨hends, ⟨h.tallied.count_eq, rfl⟩, h.ordinary, trivial⟩
  | case4 g hd hbudget run hstep =>
    have hends := Run.step_stable hb h.ends_eq
    rw [hstep] at hends
    rcases drawn_of_step hstep with ⟨e, he⟩ | ⟨-, t, ht, hdrawn⟩ | ⟨u, hu, -⟩
    · cases he
    · rw [hends] at ht
      exact h.finish hends ⟨t, ht, by rw [← h.drawn_eq hd]; exact hdrawn⟩
    · cases hu
  | case5 g hd hbudget t run hstep taken htext ih => exact ih (h.accept hb hd hstep) hok
  | case6 g hd hbudget t run hstep htext => exact h.accept hb hd hstep

theorem Reasons.pull (hb : Backend.Stable fun b : Recorded σ => Backend.endTokens b = ends) :
    ∀ (n : Nat) {g : Generation (Recorded σ)}, Reasons ends g → Calm (pull n g).1 → Reasons ends (pull n g).2
  | 0, _, h, _ => h
  | n + 1, _, h, hcalm => by
    obtain ⟨hok, hcalm⟩ := calm_cons.1 hcalm
    exact Reasons.pull hb n (h.next hb hok) hcalm

/-- **What is drawn last ends the text exactly if that is the reason**, and for another one the budget is used up. -/
theorem Reasons.endToken_iff (h : Reasons ends g) {reason : StopReason} (hstop : g.stop = some reason)
    (herror : reason ≠ .error) :
    (reason = .endToken ↔ ∃ t ∈ ends, g.run.backend.drawn.head? = some t) ∧
      (reason ≠ .endToken → g.budget ≤ g.count ∧ (reason = .contextFull ↔ g.run.context.remaining = 0)) := by
  have htold := h.told
  have hordinary : g.run.backend.drawn = g.generated.reverse → ¬∃ t ∈ ends, g.run.backend.drawn.head? = some t := by
    rintro hdrawn ⟨t, ht, hlast⟩
    rw [hdrawn] at hlast
    exact h.ordinary t (List.mem_reverse.1 (List.mem_of_head? hlast)) ht
  rw [hstop] at htold
  cases reason with
  | endToken =>
    obtain ⟨t, ht, hdrawn⟩ := htold
    exact ⟨iff_of_true rfl ⟨t, ht, by rw [hdrawn]; rfl⟩, fun hne => absurd rfl hne⟩
  | maxTokens =>
    obtain ⟨hdrawn, hspent, hroom⟩ := htold
    refine ⟨iff_of_false (fun h => by cases h) (hordinary hdrawn), fun _ => ⟨hspent, ?_⟩⟩
    exact iff_of_false (fun h => by cases h) hroom
  | contextFull =>
    obtain ⟨hdrawn, hspent, hfull⟩ := htold
    exact ⟨iff_of_false (fun h => by cases h) (hordinary hdrawn), fun _ => ⟨hspent, iff_of_true rfl hfull⟩⟩
  | error => exact absurd rfl herror

theorem reasons_begin (r : Run σ) (o : Options) (promptTokens : Nat) :
    Reasons (Backend.endTokens r.backend) (begin r o promptTokens).recorded where
  ends_eq := rfl
  tallied := ⟨rfl, rfl⟩
  ordinary := fun t ht => by cases ht
  told := rfl

end

/-! ## With a model -/

section

variable {m : Model} {erase : Option Single} {held tokens : List Token} {r : Run Engine} {o : Options}

/-- The context is full exactly if the tokens there were in all, less those that were dropped, make it up. -/
theorem Kept.remaining_eq_zero_iff {g : Generation Engine} (h : Kept m erase held tokens g) :
    g.run.context.remaining = 0 ↔
      held.length + tokens.length + g.count = m.hyperparameters.context + g.run.recycled := by
  have hadd := h.run.position_add
  have hle := h.run.toInLine.position_le
  have hcount := h.tallied.count_eq
  simp only [List.length_append] at hadd
  rw [Context.remaining, h.run.capacity_eq]
  omega

/-- **With the budget used up the context is full** exactly if, where nothing may be dropped, the room in the context
set the budget, and where something may be dropped, the tokens there were less those dropped make up the context. -/
theorem Kept.full_iff {g : Generation Engine} {k : Nat} (h : Kept m o.erase held tokens (begin r o k))
    (h' : Kept m o.erase held tokens g) (hspent : g.count = (begin r o k).budget) :
    g.stats.generatedTokens = (if o.erase.isSome then o.maxTokens else min o.maxTokens r.context.remaining) ∧
    (o.erase = none → (g.run.context.remaining = 0 ↔ r.context.remaining ≤ o.maxTokens)) ∧
    (o.erase ≠ none → (g.run.context.remaining = 0 ↔ held.length + g.stats.promptTokens + g.stats.generatedTokens =
      m.hyperparameters.context + g.stats.recycled)) := by
  have herase : r.context.erase = o.erase := h.run.erase_eq
  have hbudget : g.count = if o.erase.isSome then o.maxTokens else min o.maxTokens r.context.remaining := by
    rw [hspent, ← herase]
    rfl
  refine ⟨hbudget, fun hnone => ?_, fun _ => ?_⟩
  · rw [hnone] at h h' hbudget
    have hadd := h.run.position_add
    rw [h.run.whole rfl] at hadd
    change r.context.position + 0 = (held ++ (tokens ++ [])).length at hadd
    rw [List.append_nil, List.length_append] at hadd
    have hcapacity : r.context.capacity = _ := h.run.capacity_eq
    have hle : r.context.position ≤ _ := h.run.toInLine.position_le
    rw [h'.remaining_eq_zero_iff, h'.run.whole rfl, hbudget, Context.remaining, hcapacity]
    simp only [Option.isSome_none, Bool.false_eq_true, if_false]
    omega
  · rw [h'.remaining_eq_zero_iff, ← h'.promptTokens_eq]
    rfl

end

/-! ## Without dropping -/

/-- A step for which there is room drops nothing. -/
theorem recycled_of_step [Backend σ] {r r' : Run σ} {answer : Except Failure (Option Token)}
    (hroom : r.context.position < r.context.capacity) (h : r.step = (answer, r')) : r'.recycled = r.recycled := by
  rcases r.step_cases with ⟨e, b, -, hstep⟩ | ⟨t, b, -, -, hstep⟩ | ⟨t, b, fed, r'', -, -, hfeed, hstep⟩
  · rw [h] at hstep
    cases hstep
    rfl
  · rw [h] at hstep
    cases hstep
    rfl
  · have hfits : ¬r.context.capacity < r.context.position + [t].length := Nat.not_lt.2 hroom
    rw [Run.feed, if_neg hfits] at hfeed
    rw [h] at hstep
    cases hstep
    exact (congrArg (fun answer => answer.2.recycled) hfeed).symm

section

variable {m : Model} {erase : Option Single} {held tokens : List Token} {g : Generation Engine}

theorem Kept.recycled_step (h : Kept m erase held tokens g) (hbudget : g.count < g.budget)
    (hfits : held.length + tokens.length + g.budget ≤ m.hyperparameters.context) {answer : Except Failure (Option Token)}
    {r : Run Engine} (hstep : g.run.step = (answer, r)) : r.recycled = g.run.recycled := by
  refine recycled_of_step ?_ hstep
  have hadd := h.run.position_add
  have hcount := h.tallied.count_eq
  simp only [List.length_append] at hadd
  rw [h.run.capacity_eq]
  omega

/-- **Where all tokens there can be fit into the context nothing is dropped.** -/
theorem Kept.recycled_next (h : Kept m erase held tokens g)
    (hfits : held.length + tokens.length + g.budget ≤ m.hyperparameters.context) :
    g.next.2.run.recycled = g.run.recycled := by
  fun_induction Generation.next g with
  | case1 g hd => rfl
  | case2 g hd hbudget => rw [run_finish]
  | case3 g hd hbudget e run hstep =>
    rw [run_fail]
    exact h.recycled_step (Nat.not_le.1 hbudget) hfits hstep
  | case4 g hd hbudget run hstep =>
    rw [run_finish]
    exact h.recycled_step (Nat.not_le.1 hbudget) hfits hstep
  | case5 g hd hbudget t run hstep taken htext ih =>
    exact (ih (h.accept (Nat.not_le.1 hbudget) hstep) hfits).trans (h.recycled_step (Nat.not_le.1 hbudget) hfits hstep)
  | case6 g hd hbudget t run hstep htext => exact h.recycled_step (Nat.not_le.1 hbudget) hfits hstep

theorem Kept.recycled_pull : ∀ (n : Nat) {g : Generation Engine}, Kept m erase held tokens g →
    held.length + tokens.length + g.budget ≤ m.hyperparameters.context →
    (Generation.pull n g).2.run.recycled = g.run.recycled
  | 0, _, _, _ => rfl
  | n + 1, g, h, hfits => by
    rw [← budget_next g] at hfits
    rw [Generation.pull, Kept.recycled_pull n h.next.1 hfits]
    rw [budget_next g] at hfits
    exact h.recycled_next hfits

end

/-! ## From the start -/

section

variable {e : Engine} {s : Session} {c : Context} {prompt : String} {o : Options} {g : Generation Engine}

/-- **A generation that keeps the account and has ended** stopped for the reason it reports. -/
theorem Kept.stopped {m : Model} {held tokens : List Token} {r : Run Engine} {k : Nat}
    (h : Kept m o.erase held tokens (begin r o k)) {n : Nat}
    (hdone : (Generation.pull n (begin r o k)).2.isDone = true) :
    let g' := (Generation.pull n (begin r o k)).2
    let drawn := (Generation.pull n (begin r o k).recorded).2.run.backend.drawn
    ∃ reason, g'.stats.stop = some reason ∧ reason ≠ .error ∧
      (reason = .endToken ↔ ∃ t ∈ m.endTokens, drawn.head? = some t) ∧
      (reason ≠ .endToken →
        g'.stats.generatedTokens = (if o.erase.isSome then o.maxTokens else min o.maxTokens r.context.remaining) ∧
        (o.erase = none → (reason = .contextFull ↔ r.context.remaining ≤ o.maxTokens)) ∧
        (o.erase ≠ none → (reason = .contextFull ↔ held.length + g'.stats.promptTokens + g'.stats.generatedTokens =
          m.hyperparameters.context + g'.stats.recycled))) := by
  have hends : Backend.endTokens r.backend = m.endTokens := h.run.toInLine.endTokens_eq
  obtain ⟨hn, hok⟩ := h.pull n
  have hcalm : Calm (Generation.pull n (begin r o k).recorded).1 := by
    have hitems := congrArg Prod.fst (pull_recorded n (begin r o k))
    exact hitems ▸ hok .panic
  have hreasons := (reasons_begin r o k).pull (Recorded.stable (Engine.stable_endTokens _)) n hcalm
  have hcount := count_pull_le n (g := begin r o k) (Nat.zero_le _)
  have hbudget := budget_pull n (begin r o k)
  rw [pull_recorded] at hn hcount hbudget hdone ⊢
  rw [hends] at hreasons
  generalize (Generation.pull n (begin r o k).recorded).2 = g' at hreasons hn hcount hbudget hdone ⊢
  obtain ⟨reason, hreason⟩ := Option.isSome_iff_exists.1 (hreasons.tallied.done_eq ▸ hdone)
  have herror : reason ≠ .error := fun h => hn.unfailed (h ▸ hreason)
  obtain ⟨hend, hspent⟩ := hreasons.endToken_iff hreason herror
  refine ⟨reason, hreason, herror, hend, fun hne => ?_⟩
  obtain ⟨hused, hfull⟩ := hspent hne
  rw [hfull]
  exact h.full_iff hn (Nat.le_antisymm hcount (hbudget ▸ hused))

/-- **A generation that has ended stopped for the reason it reports.**  From a context in line with a reachable engine
it never fails, and it stopped for an end token exactly if the last token drawn is one.  Else its budget is used up:
what the options say where something may be dropped, and no more than the room there was where nothing may be.
Without a share to drop the reason is a full context exactly if that room was no more than the options say.  With one
it is a full context exactly if the tokens there were in all, less those dropped, make up the context. -/
theorem stopped_pull {e : Engine} {s : Session} {c : Context} {prompt : String} {o : Options} {g : Generation Engine}
    (h : Engine.Reachable .machine e) (hsession : e.session = some s) (hbegins : c.tokens <+: e.evaluated)
    (hposition : c.position = c.tokens.length) (hstart : start e c prompt o = .ok g) {n : Nat}
    (hdone : (pull n g).2.isDone = true) :
    let g' := (pull n g).2
    let (items, m) := pull n g.recorded
    pull n g = (items, m.map Recorded.backend) ∧
    ∃ reason, g'.stats.stop = some reason ∧ reason ≠ .error ∧
      (reason = .endToken ↔ ∃ t ∈ s.model.endTokens, m.run.backend.drawn.head? = some t) ∧
      (reason ≠ .endToken →
        g'.stats.generatedTokens = (if o.erase.isSome then o.maxTokens else min o.maxTokens g.run.context.remaining) ∧
        (o.erase = none → (reason = .contextFull ↔ g.run.context.remaining ≤ o.maxTokens)) ∧
        (o.erase ≠ none → (reason = .contextFull ↔ c.tokens.length + g'.stats.promptTokens + g'.stats.generatedTokens =
          s.model.hyperparameters.context + g'.stats.recycled))) := by
  have hkept := kept_of_start hsession (Engine.sound_of_reachable h s hsession) hbegins hposition hstart
  obtain ⟨r, k, rfl⟩ := eq_begin_of_start hstart
  exact ⟨pull_recorded n _, hkept.stopped hdone⟩

end

/-! ### A context that is filled to the end -/

/-- An engine without end tokens that holds one token, with room for three more, comes to the end of three. -/
theorem exists_ended_solo {o : Options} (hvalid : o.validate = .ok ()) (hthree : o.maxTokens = 3) :
    ∃ (e : Engine) (s : Session), Engine.Reachable .machine e ∧ e.session = some s ∧ s.model.endTokens = [] ∧
      s.model.hyperparameters.context = 4 ∧ soloHeld.tokens = e.evaluated ∧
      (firstRun e soloHeld o).context.remaining = 3 ∧
      let g := begin (firstRun e soloHeld o) o 0
      start e soloHeld "" o = .ok g ∧ g.budget ≤ 3 ∧ (pull 4 g).2.isDone = true := by
  obtain ⟨m, hsizes, hends, -, hsolo⟩ := Decoder.exists_solo
  obtain ⟨v, hsession, htokens⟩ := hsolo 1
  obtain ⟨a, v', hreach, ha, hevaluated, hstarts⟩ := exists_start_solo hsizes hsession htokens
  have hcapacity : Backend.contextLength a = 4 := (Engine.contextLength_eq ha).trans (by rw [hsizes]; rfl)
  have hbudget : (begin (firstRun a soloHeld o) o 0).budget ≤ 3 := hthree ▸ budget_begin_le _ o 0
  refine ⟨a, _, hreach, ha, hends, by rw [hsizes]; rfl, hevaluated.symm, ?_, hstarts o hvalid, hbudget, ?_⟩
  · change Backend.contextLength a - 1 = 3
    rw [hcapacity]
  · have hcalls : (begin (firstRun a soloHeld o) o 0).budget < 0 + 4 := Nat.lt_succ_of_le hbudget
    have hs := Engine.sound_of_reachable hreach _ ha
    have hkept := kept_of_start ha hs (hevaluated ▸ List.prefix_rfl) rfl (hstarts o hvalid)
    exact isDone_pull (Nat.zero_le _) hcalls ((hkept.pull 4).2 .panic)

theorem stopped_pull_solo : ∃ (e : Engine) (g : Generation Engine), start e soloHeld "" three = .ok g ∧
    (pull 4 g).2.isDone = true ∧ (pull 4 g).2.stats.stop = some .contextFull ∧
    (pull 4 g).2.stats.generatedTokens = 3 := by
  obtain ⟨e, s, hreach, hsession, hends, -, hevaluated, hroom, hstart, -, hdone⟩ :=
    exists_ended_solo (show three.validate = .ok () from rfl) rfl
  obtain ⟨-, reason, hstop, -, hend, hspent⟩ :=
    stopped_pull hreach hsession (hevaluated ▸ List.prefix_rfl) rfl hstart hdone
  have hne : reason ≠ .endToken := fun h => by
    obtain ⟨t, ht, -⟩ := hend.1 h
    rw [hends] at ht
    cases ht
  obtain ⟨hcount, hfull, -⟩ := hspent hne
  change _ = min 3 (firstRun e soloHeld three).context.remaining at hcount
  rw [hroom] at hcount
  exact ⟨e, _, hstart, hdone, (hfull rfl).2 (Nat.le_of_eq hroom) ▸ hstop, hcount⟩

/-- **A generation for which something may be dropped stops with a full context** where its budget ends with the room,
though nothing was dropped and its budget is what the options say. -/
theorem contextFull_solo : ∃ (e : Engine) (s : Session) (g : Generation Engine),
    Engine.Reachable .machine e ∧ e.session = some s ∧ soloHeld.tokens = e.evaluated ∧
    soloHeld.position = soloHeld.tokens.length ∧ dropHalf.validate = .ok () ∧ dropHalf.erase.isSome = true ∧
    start e soloHeld "" dropHalf = .ok g ∧ (pull 4 g).2.isDone = true ∧ (∀ err, some (.error err) ∉ (pull 4 g).1) ∧
    (pull 4 g).2.stats = ⟨0, dropHalf.maxTokens, 0, some .contextFull⟩ := by
  obtain ⟨e, s, hreach, hsession, hends, hcontext, hevaluated, -, hstart, hbudget, hdone⟩ :=
    exists_ended_solo (show dropHalf.validate = .ok () from rfl) rfl
  have hs := Engine.sound_of_reachable hreach s hsession
  have hkept := kept_of_start hsession hs (hevaluated ▸ List.prefix_rfl) rfl hstart
  obtain ⟨hn, hok⟩ := hkept.pull 4
  obtain ⟨reason, hstop, -, hend, hspent⟩ := hkept.stopped hdone
  have hne : reason ≠ .endToken := fun h => by
    obtain ⟨t, ht, -⟩ := hend.1 h
    rw [hends] at ht
    cases ht
  obtain ⟨hcount, -, hfull⟩ := hspent hne
  have hprompt : (pull 4 (begin (firstRun e soloHeld dropHalf) dropHalf 0)).2.promptTokens = 0 :=
    hn.promptTokens_eq.trans (by rw [encode_empty hs.model]; rfl)
  have hrecycled : (pull 4 (begin (firstRun e soloHeld dropHalf) dropHalf 0)).2.run.recycled = 0 :=
    hkept.recycled_pull 4 (by
      rw [encode_empty hs.model, hcontext]
      exact Nat.add_le_add_left hbudget 1)
  have hreason : reason = .contextFull := by
    refine (hfull (by decide)).2 ?_
    rw [hcount, hcontext]
    change 1 + (pull 4 (begin (firstRun e soloHeld dropHalf) dropHalf 0)).2.promptTokens + 3 = _
    rw [hprompt]
    exact (congrArg (4 + ·) hrecycled).symm
  refine ⟨e, s, _, hreach, hsession, hevaluated, rfl, rfl, rfl, hstart, hdone, hok, ?_⟩
  rw [hreason] at hstop
  generalize (pull 4 (begin (firstRun e soloHeld dropHalf) dropHalf 0)).2 = g' at hstop hcount hprompt hrecycled ⊢
  have hstats : g'.stats = ⟨g'.promptTokens, g'.stats.generatedTokens, g'.run.recycled, g'.stats.stop⟩ := rfl
  rw [hstats, hprompt, hcount, hrecycled, hstop]
  rfl

end Generation
end CausalLM
