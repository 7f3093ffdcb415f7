import CausalLM.Proofs.Generation.Alignment
import Mathlib.Data.List.DropRight
/-!
# Proofs.Generation.Conservation — no token is lost or doubled

What the context of a run holds are the tokens it held at first and all that were added since, less as many of the oldest
as the run counts as recycled (`Conserves`).  Feeding a piece keeps the account whether the run makes room for it or not
(`Conserves.feed`), so a prompt does (`Conserves.feedAll`) and every step does (`Conserves.step`).
-/
namespace CausalLM

open Decoder (Engine Session Model)

namespace Generation

/-- There is room for so many tokens, or it can be made. -/
def Run.Admits {σ : Type} (r : Run σ) (n : Nat) : Prop :=
  r.context.position + n ≤ r.context.capacity ∨ r.context.erase.isSome = true ∧ n ≤ r.context.capacity

theorem admits_of_feed {σ : Type} [Backend σ] {r r' : Run σ} {tokens : List Token}
    (h : r.feed tokens = (.ok (), r')) : r.Admits tokens.length := by
  unfold Run.feed at h
  split at h
  · split at h
    · cases h
    · rename_i hrecycle
      exact .inr (of_recycle_eq_ok hrecycle)
  · rename_i hroom
    exact .inl (Nat.not_lt.1 hroom)

/-- **The account of a run** that held tokens and had more added to them: the oldest may have been dropped, all others
are there in order, and once anything was added the engine holds the same. -/
structure Conserves (m : Model) (erase : Option Single) (held added : List Token) (r : Run Engine) : Prop
    extends InLine m r where
  erase_eq : r.context.erase = erase
  recycled_le : r.recycled ≤ (held ++ added).length
  tokens_eq : r.context.tokens = (held ++ added).drop r.recycled
  evaluated_eq : added ≠ [] → r.backend.evaluated = r.context.tokens
  /-- Without a share to drop nothing is dropped. -/
  whole : erase = none → r.recycled = 0

namespace Conserves

variable {m : Model} {erase : Option Single} {held added tokens : List Token} {r : Run Engine}

theorem position_add (h : Conserves m erase held added r) : r.context.position + r.recycled = (held ++ added).length := by
  have hle := h.recycled_le
  rw [h.position_eq, h.tokens_eq, List.length_drop]
  omega

/-- **The context holds the last tokens** of those there were in all. -/
theorem tokens_eq_rtake (h : Conserves m erase held added r) :
    r.context.tokens = (held ++ added).rtake (held.length + added.length - r.recycled) := by
  have hle := h.recycled_le
  rw [List.length_append] at hle
  have hdrop : (held ++ added).length - (held.length + added.length - r.recycled) = r.recycled := by
    rw [List.length_append]
    omega
  rw [List.rtake, hdrop]
  exact h.tokens_eq

theorem of_session_eq (h : Conserves m erase held added r) {b : Engine} (hb : b.session = r.backend.session) :
    Conserves m erase held added { r with backend := b } := by
  obtain ⟨s, hsession, hs⟩ := h.session
  have hevaluated : b.evaluated = r.backend.evaluated := by
    rw [Engine.evaluated_eq (hb.trans hsession), Engine.evaluated_eq hsession]
  refine ⟨⟨⟨s, hb.trans hsession, hs⟩, ?_, h.position_eq, h.capacity_eq⟩, h.erase_eq, h.recycled_le, h.tokens_eq,
    fun hne => hevaluated.trans (h.evaluated_eq hne), h.whole⟩
  exact hevaluated ▸ h.tokens_begin

theorem evaluate (h : Conserves m erase held added r) (hne : tokens ≠ [])
    (hroom : r.context.position + tokens.length ≤ r.context.capacity)
    (hbelow : ∀ t ∈ tokens, t.isBelow m.hyperparameters.vocab = true) :
    ∃ r', r.evaluate tokens = (.ok (), r') ∧ Conserves m erase held (added ++ tokens) r' ∧
      r'.backend.evaluated ≠ [] := by
  obtain ⟨r', hevaluate, hextends⟩ := h.toInLine.evaluate hne hroom hbelow
  have hrecycled := hextends.recycled_eq
  have hevaluated := hextends.evaluated_eq (.inl hne)
  have htokens : r'.context.tokens = r.context.tokens ++ tokens := by rw [hextends.context_eq]
  have hall : held ++ (added ++ tokens) = (held ++ added) ++ tokens := (List.append_assoc _ _ _).symm
  refine ⟨r', hevaluate, ⟨hextends.inLine, ?_, ?_, ?_, fun _ => hevaluated, ?_⟩, ?_⟩
  · rw [hextends.context_eq]
    exact h.erase_eq
  · rw [hrecycled, hall, List.length_append]
    exact Nat.le_add_right_of_le h.recycled_le
  · rw [htokens, h.tokens_eq, hrecycled, hall, List.drop_append_of_le_length h.recycled_le]
  · rw [hrecycled]
    exact h.whole
  · rw [hevaluated, htokens]
    exact fun hnil => hne (List.append_eq_nil_iff.1 hnil).2

/-- **Recycling drops from the front and counts what it drops.** -/
theorem recycle (h : Conserves m erase held added r) {incoming : Nat} (herase : r.context.erase.isSome = true)
    (hfits : incoming ≤ r.context.capacity) :
    ∃ r', r.recycle incoming = (.ok (), r') ∧ Conserves m erase held added r' ∧
      r'.context.position + incoming ≤ r'.context.capacity := by
  obtain ⟨fraction, hfraction⟩ := Option.isSome_iff_exists.1 herase
  obtain ⟨r', dropped, hrecycle, hrecycled⟩ := h.toInLine.recycle hfraction hfits
  have hdropped := hrecycled.dropped_le
  have hle := h.recycled_le
  rw [h.tokens_eq, List.length_drop] at hdropped
  refine ⟨r', hrecycle, ⟨hrecycled.inLine, ?_, ?_, ?_, fun _ => hrecycled.evaluated_eq, fun hnone => ?_⟩, hrecycled.room⟩
  · rw [hrecycled.context_eq]
    exact h.erase_eq
  · rw [hrecycled.recycled_eq]
    omega
  · rw [hrecycled.context_eq, hrecycled.recycled_eq]
    change r.context.tokens.drop dropped = _
    rw [h.tokens_eq, List.drop_drop]
  · rw [h.erase_eq, hnone] at hfraction
    cases hfraction

/-- **A piece that is admitted is added.** -/
theorem feed (h : Conserves m erase held added r) (hne : tokens ≠ []) (hadmits : r.Admits tokens.length)
    (hbelow : ∀ t ∈ tokens, t.isBelow m.hyperparameters.vocab = true) :
    ∃ r', r.feed tokens = (.ok (), r') ∧ Conserves m erase held (added ++ tokens) r' ∧ r'.backend.evaluated ≠ [] := by
  by_cases hroom : r.context.capacity < r.context.position + tokens.length
  · obtain ⟨herase, hfits⟩ := hadmits.resolve_left (Nat.not_le.2 hroom)
    obtain ⟨r₁, hrecycle, hconserves, hroom₁⟩ := h.recycle herase hfits
    obtain ⟨r', hevaluate, hadded⟩ := hconserves.evaluate hne hroom₁ hbelow
    refine ⟨r', ?_, hadded⟩
    rw [Run.feed, if_pos hroom, hrecycle]
    exact hevaluate
  · obtain ⟨r', hevaluate, hadded⟩ := h.evaluate hne (Nat.not_lt.1 hroom) hbelow
    refine ⟨r', ?_, hadded⟩
    rw [Run.feed, if_neg hroom]
    exact hevaluate

/-- **Pieces that were fed were added**, all of them in order. -/
theorem feedAll : ∀ {pieces : List (List Token)} {added : List Token} {r r' : Run Engine},
    Conserves m erase held added r → (∀ piece ∈ pieces, piece ≠ []) →
    (∀ t ∈ pieces.flatten, t.isBelow m.hyperparameters.vocab = true) → r.feedAll pieces = (.ok (), r') →
    Conserves m erase held (added ++ pieces.flatten) r' ∧
      (pieces ≠ [] ∨ r.backend.evaluated ≠ [] → r'.backend.evaluated ≠ [])
  | [], added, r, r', h, _, _, hfeed => by
    cases hfeed
    rw [List.flatten_nil, List.append_nil]
    exact ⟨h, fun hne => hne.resolve_left (fun h => h rfl)⟩
  | piece :: rest, added, r, r', h, hne, hbelow, hfeed => by
    rw [List.flatten_cons] at hbelow ⊢
    obtain ⟨hpiece, hrest⟩ := List.forall_mem_cons.1 hne
    obtain ⟨hfirst, hothers⟩ := List.forall_mem_append.1 hbelow
    rw [Run.feedAll] at hfeed
    split at hfeed
    · cases hfeed
    · rename_i r₁ hone
      obtain ⟨r₂, hone', hadded, hawake⟩ := h.feed hpiece (admits_of_feed hone) hfirst
      rw [hone] at hone'
      cases hone'
      obtain ⟨hall, hawake'⟩ := feedAll hadded hrest hothers hfeed
      rw [← List.append_assoc]
      exact ⟨hall, fun _ => hawake' (.inr hawake)⟩

/-- **Pieces that are admitted are fed**: without a share to drop where all fit behind what is there, with one where
each of them fits alone. -/
theorem exists_feedAll_of_fits : ∀ {pieces : List (List Token)} {added : List Token} {r : Run Engine},
    Conserves m erase held added r → (∀ piece ∈ pieces, piece ≠ []) →
    (∀ t ∈ pieces.flatten, t.isBelow m.hyperparameters.vocab = true) →
    (erase = none → (held ++ added).length + pieces.flatten.length ≤ m.hyperparameters.context) →
    (erase ≠ none → ∀ piece ∈ pieces, piece.length ≤ m.hyperparameters.context) → ∃ r', r.feedAll pieces = (.ok (), r')
  | [], _, r, _, _, _, _, _ => ⟨r, rfl⟩
  | piece :: rest, added, r, h, hne, hbelow, hroom, hfits => by
    rw [List.flatten_cons] at hbelow hroom
    obtain ⟨hpiece, hrest⟩ := List.forall_mem_cons.1 hne
    obtain ⟨hfirst, hothers⟩ := List.forall_mem_append.1 hbelow
    have hlength : (piece ++ rest.flatten).length = piece.length + rest.flatten.length := List.length_append
    have hadmits : r.Admits piece.length := by
      by_cases hnone : erase = none
      · have hposition := h.position_add
        have hall := hroom hnone
        rw [h.whole hnone, Nat.add_zero] at hposition
        refine .inl ?_
        rw [h.capacity_eq]
        omega
      · refine .inr ⟨?_, ?_⟩
        · rw [h.erase_eq]
          exact Option.isSome_iff_ne_none.2 hnone
        · rw [h.capacity_eq]
          exact hfits hnone piece List.mem_cons_self
    obtain ⟨r₁, hone, hadded, -⟩ := h.feed hpiece hadmits hfirst
    obtain ⟨r', hall⟩ := exists_feedAll_of_fits hadded hrest hothers
      (by
        intro hnone
        have hall := hroom hnone
        rw [← List.append_assoc, List.length_append]
        omega)
      (fun hsome => (List.forall_mem_cons.1 (hfits hsome)).2)
    refine ⟨r', ?_⟩
    rw [Run.feedAll, hone]
    exact hall

/-- Without a share to drop, pieces are fed that fit in all. -/
theorem exists_feedAll {pieces : List (List Token)} (h : Conserves m none held added r)
    (hne : ∀ piece ∈ pieces, piece ≠ []) (hbelow : ∀ t ∈ pieces.flatten, t.isBelow m.hyperparameters.vocab = true)
    (hroom : (held ++ added).length + pieces.flatten.length ≤ m.hyperparameters.context) :
    ∃ r', r.feedAll pieces = (.ok (), r') :=
  h.exists_feedAll_of_fits hne hbelow (fun _ => hroom) fun hsome => absurd rfl hsome

/-- **A step ends the text or adds its token**, where something was evaluated and the token is admitted. -/
theorem step (h : Conserves m erase held added r) (hawake : r.backend.evaluated ≠ []) (hadmits : r.Admits 1) :
    ∃ r', r'.backend.evaluated ≠ [] ∧ (r.step = (.ok none, r') ∧ Conserves m erase held added r' ∨
      ∃ t, r.step = (.ok (some t), r') ∧ Conserves m erase held (added ++ [t]) r') := by
  obtain ⟨s, hsession, hs, rfl⟩ := h.session
  have hne : s.evaluation.tokens ≠ [] := by rwa [Engine.evaluated_eq hsession] at hawake
  obtain ⟨t, ht, hbelow⟩ := Engine.exists_sample hsession hs hne r.context
  have hsampled := h.of_session_eq (Engine.session_sample r.backend r.context)
  have hawake' : (r.backend.sample r.context).2.evaluated ≠ [] := by
    rwa [Engine.evaluated_sample]
  rcases r.step_cases with ⟨e, b, hb, -⟩ | ⟨u, b, hb, -, hstep⟩ | ⟨u, b, answer, r', hb, -, hfeed, hstep⟩
  · have hfail : (r.backend.sample r.context).1 = .error e := congrArg Prod.fst hb
    rw [ht] at hfail
    cases hfail
  · have hb' : r.backend.sample r.context = (.ok u, b) := hb
    rw [hb'] at hsampled hawake'
    exact ⟨_, hawake', .inl ⟨hstep, hsampled⟩⟩
  · have hb' : r.backend.sample r.context = (.ok u, b) := hb
    rw [hb'] at hsampled ht
    cases ht
    obtain ⟨r'', hfed, hadded, hawake''⟩ := hsampled.feed (List.cons_ne_nil t []) hadmits (by simpa using hbelow)
    rw [hfeed] at hfed
    cases hfed
    exact ⟨_, hawake'', .inr ⟨t, hstep, hadded⟩⟩

end Conserves

end Generation
end CausalLM
