import CausalLM.Proofs.Decoder.Invariant
import CausalLM.Proofs.Generation.Run
/-!
# Proofs.Generation.Alignment — a context in line with its engine

A context is in line with an engine when its tokens are the first ones the engine evaluated and its position is behind
them (`InLine`).  Then known tokens for which there is room are evaluated, at once or in pieces (`InLine.evaluate`,
`InLine.evaluateAll`).  Recycling starts from nothing and evaluates what is kept, so it succeeds too, and it leaves the
room it was asked for whatever share of the history it is told to drop (`InLine.recycle`).
-/
namespace CausalLM

open Decoder (Engine Session Model)

namespace Generation

/-! ## Pieces -/

theorem flatten_chunks {α : Type} (n : Nat) (l : List α) : (chunks n l).flatten = l := by
  fun_induction chunks n l with
  | case1 => rfl
  | case2 a rest ih => rw [List.flatten_cons, ih, List.cons_append, List.take_append_drop]

theorem ne_nil_of_mem_chunks {α : Type} (n : Nat) (l : List α) : ∀ piece ∈ chunks n l, piece ≠ [] := by
  fun_induction chunks n l with
  | case1 =>
    intro piece h
    cases h
  | case2 a rest ih =>
    intro piece h
    rcases List.mem_cons.1 h with rfl | h
    · exact List.cons_ne_nil _ _
    · exact ih piece h

theorem flatten_eq_nil_iff {α : Type} {pieces : List (List α)} (hne : ∀ piece ∈ pieces, piece ≠ []) :
    pieces.flatten = [] ↔ pieces = [] := by
  rw [List.flatten_eq_nil_iff, List.eq_nil_iff_forall_not_mem]
  exact forall₂_congr fun piece hpiece => iff_of_false (hne piece hpiece) not_false

/-! ## Contexts in line -/

/-- **The context of a run is in line with its engine**, which has the model `m`. -/
structure InLine (m : Model) (r : Run Engine) : Prop where
  session : ∃ s, r.backend.session = some s ∧ s.Sound ∧ s.model = m
  tokens_begin : r.context.tokens <+: r.backend.evaluated
  position_eq : r.context.position = r.context.tokens.length
  capacity_eq : r.context.capacity = m.hyperparameters.context

/-- **What evaluating more tokens makes of a run.** -/
structure Run.Extends (m : Model) (r : Run Engine) (tokens : List Token) (r' : Run Engine) : Prop where
  inLine : InLine m r'
  context_eq : r'.context = { r.context with
    tokens := r.context.tokens ++ tokens, position := r.context.position + tokens.length }
  recycled_eq : r'.recycled = r.recycled
  /-- The engine holds the context's tokens alone, from the first token on or as it did before. -/
  evaluated_eq : tokens ≠ [] ∨ r.backend.evaluated = r.context.tokens → r'.backend.evaluated = r'.context.tokens

/-- **What making room for more tokens makes of a run.** -/
structure Run.Recycled (m : Model) (r : Run Engine) (incoming dropped : Nat) (r' : Run Engine) : Prop where
  inLine : InLine m r'
  dropped_le : dropped ≤ r.context.tokens.length
  context_eq : r'.context = { r.context with
    tokens := r.context.tokens.drop dropped, position := r.context.position - dropped }
  recycled_eq : r'.recycled = r.recycled + dropped
  evaluated_eq : r'.backend.evaluated = r'.context.tokens
  room : r'.context.position + incoming ≤ r'.context.capacity

variable {m : Model} {r r' : Run Engine} {tokens : List Token}

theorem InLine.position_le_length (h : InLine m r) {s : Session} (hsession : r.backend.session = some s) :
    r.context.position ≤ s.evaluation.tokens.length := by
  rw [h.position_eq, ← Engine.evaluated_eq hsession]
  exact h.tokens_begin.length_le

theorem InLine.position_le (h : InLine m r) : r.context.position ≤ m.hyperparameters.context := by
  obtain ⟨s, hsession, hs, rfl⟩ := h.session
  exact Nat.le_trans (h.position_le_length hsession) hs.evaluation.tokens_le

theorem InLine.tokens_below (h : InLine m r) : ∀ t ∈ r.context.tokens, t.isBelow m.hyperparameters.vocab = true := by
  obtain ⟨s, hsession, hs, rfl⟩ := h.session
  have hbegins := h.tokens_begin
  rw [Engine.evaluated_eq hsession] at hbegins
  intro t ht
  exact hs.evaluation.tokens_below t (hbegins.subset ht)

theorem Run.Extends.refl (h : InLine m r) : r.Extends m [] r := by
  refine ⟨h, ?_, rfl, fun hnil => hnil.resolve_left (fun h => h rfl)⟩
  rw [List.append_nil]
  rfl

theorem Run.Extends.trans {r'' : Run Engine} {more : List Token} (h : r.Extends m tokens r')
    (h' : r'.Extends m more r'') : r.Extends m (tokens ++ more) r'' := by
  refine ⟨h'.inLine, ?_, h'.recycled_eq.trans h.recycled_eq, fun hold => h'.evaluated_eq ?_⟩
  · rw [h'.context_eq, h.context_eq, List.append_assoc, List.length_append, Nat.add_assoc]
  · by_cases hmore : more = []
    · rw [hmore, List.append_nil] at hold
      exact .inr (h.evaluated_eq hold)
    · exact .inl hmore

/-- Known tokens for which there is room extend the evaluation behind the context's tokens. -/
theorem InLine.exists_evaluate (h : InLine m r) {s : Session} (hsession : r.backend.session = some s) (hne : tokens ≠ [])
    (hroom : r.context.position + tokens.length ≤ r.context.capacity)
    (hbelow : ∀ t ∈ tokens, t.isBelow m.hyperparameters.vocab = true) :
    ∃ v, s.evaluation.Extended .machine s.model r.context.position tokens v ∧ r.evaluate tokens =
      (.ok (), ⟨{ r.backend with evaluation := some v }, { r.context with
        tokens := r.context.tokens ++ tokens, position := r.context.position + tokens.length }, r.recycled⟩) := by
  have hstart := h.position_le_length hsession
  obtain ⟨s', hsession', hs, rfl⟩ := h.session
  cases hsession.symm.trans hsession'
  obtain ⟨v, hv, heq⟩ := Engine.exists_evaluate (k := .machine) hsession hs hne hstart (h.capacity_eq ▸ hroom) hbelow
  have hcontext : r.context.tokens.take r.context.position ++ tokens = r.context.tokens ++ tokens := by
    rw [h.position_eq, List.take_length]
  rw [hcontext] at heq
  have hbackend : Backend.evaluate r.backend r.context tokens = _ := heq
  refine ⟨v, hv, ?_⟩
  rw [Run.evaluate, hbackend]
  rfl

/-- **Known tokens for which there is room are evaluated.** -/
theorem InLine.evaluate (h : InLine m r) (hne : tokens ≠ [])
    (hroom : r.context.position + tokens.length ≤ r.context.capacity)
    (hbelow : ∀ t ∈ tokens, t.isBelow m.hyperparameters.vocab = true) :
    ∃ r', r.evaluate tokens = (.ok (), r') ∧ r.Extends m tokens r' := by
  obtain ⟨s, hsession, hs, rfl⟩ := h.session
  obtain ⟨v, hv, heq⟩ := h.exists_evaluate hsession hne hroom hbelow
  -- going back to the context's position leaves exactly the context's tokens
  have hfront : s.evaluation.tokens.take r.context.position = r.context.tokens := by
    rw [h.position_eq, ← Engine.evaluated_eq hsession]
    exact (List.prefix_iff_eq_take.1 h.tokens_begin).symm
  have htokens : v.tokens = r.context.tokens ++ tokens := by rw [hv.tokens_eq, hfront]
  refine ⟨_, heq, ⟨⟨_, Engine.session_of_loaded_eq hsession rfl rfl, ⟨hs.model, hv.sound⟩, rfl⟩, ?_, ?_, h.capacity_eq⟩,
    rfl, rfl, fun _ => htokens⟩
  · change r.context.tokens ++ tokens <+: v.tokens
    simp only [htokens, List.prefix_rfl]
  · change r.context.position + tokens.length = (r.context.tokens ++ tokens).length
    rw [List.length_append, h.position_eq]

theorem InLine.evaluateAll : ∀ {pieces : List (List Token)} {r : Run Engine}, InLine m r →
    (∀ piece ∈ pieces, piece ≠ []) → r.context.position + pieces.flatten.length ≤ r.context.capacity →
    (∀ t ∈ pieces.flatten, t.isBelow m.hyperparameters.vocab = true) →
    ∃ r', r.evaluateAll pieces = (.ok (), r') ∧ r.Extends m pieces.flatten r'
  | [], r, h, _, _, _ => ⟨r, rfl, .refl h⟩
  | piece :: rest, r, h, hne, hroom, hbelow => by
    rw [List.flatten_cons] at hroom hbelow ⊢
    rw [List.length_append] at hroom
    obtain ⟨hpiece, hrest⟩ := List.forall_mem_cons.1 hne
    obtain ⟨hfirst, hothers⟩ := List.forall_mem_append.1 hbelow
    obtain ⟨r', hevaluate, hextends⟩ := h.evaluate hpiece (by omega) hfirst
    have hroom' : r'.context.position + rest.flatten.length ≤ r'.context.capacity := by
      rw [hextends.context_eq]
      change r.context.position + piece.length + _ ≤ r.context.capacity
      omega
    obtain ⟨r'', hall, hextends'⟩ := InLine.evaluateAll hextends.inLine hrest hroom' hothers
    refine ⟨r'', ?_, hextends.trans hextends'⟩
    rw [Run.evaluateAll, hevaluate]
    exact hall

/-! ## Making room -/

theorem InLine.reset (h : InLine m r) : ∃ e, Backend.reset r.backend = (.ok (), e) ∧ e.evaluated = [] ∧
    InLine m ⟨e, r.context.clear, r.recycled⟩ := by
  obtain ⟨s, hsession, hs, rfl⟩ := h.session
  refine ⟨{ r.backend with evaluation := some s.evaluation.clear }, ?_, rfl,
    ⟨_, Engine.session_of_loaded_eq hsession rfl rfl, ⟨hs.model, hs.evaluation.clear⟩, rfl⟩, List.nil_prefix, rfl,
    h.capacity_eq⟩
  exact Engine.reset_eq hsession

/-- **What is dropped leaves room**, whatever number the share of the history comes to. -/
theorem room_of_dropCount (c : Context) (fraction : Single) {incoming : Nat} (hfits : incoming ≤ c.capacity) :
    Run.dropCount c fraction incoming ≤ c.position ∧
      c.position - Run.dropCount c fraction incoming + incoming ≤ c.capacity := by
  unfold Run.dropCount
  dsimp only
  omega

/-- **Recycling succeeds** wherever tokens may be dropped and what is to come fits at all. -/
theorem InLine.recycle (h : InLine m r) {incoming : Nat} {fraction : Single} (herase : r.context.erase = some fraction)
    (hfits : incoming ≤ r.context.capacity) :
    ∃ r' dropped, r.recycle incoming = (.ok (), r') ∧ r.Recycled m incoming dropped r' := by
  obtain ⟨hle, hroom⟩ := room_of_dropCount r.context fraction hfits
  generalize hdropped : Run.dropCount r.context fraction incoming = dropped at hle hroom
  obtain ⟨e, hreset, hnothing, hin⟩ := h.reset
  have hkept : (r.context.tokens.drop dropped).length = r.context.position - dropped := by
    rw [List.length_drop, h.position_eq]
  obtain ⟨r', hall, hextends⟩ := hin.evaluateAll
    (ne_nil_of_mem_chunks (max r.context.batch 1) (r.context.tokens.drop dropped))
    (by
      rw [flatten_chunks, hkept]
      change 0 + (r.context.position - dropped) ≤ r.context.capacity
      omega)
    (by
      rw [flatten_chunks]
      exact fun t ht => h.tokens_below t (List.mem_of_mem_drop ht))
  rw [flatten_chunks] at hextends
  have hcontext : r'.context = { r.context with
      tokens := r.context.tokens.drop dropped, position := r.context.position - dropped } := by
    rw [hextends.context_eq, ← hkept]
    change ({ r.context with tokens := [] ++ _, position := 0 + _ } : Context) = _
    rw [List.nil_append, Nat.zero_add]
  refine ⟨{ r' with recycled := r'.recycled + dropped }, dropped, ?_, ?_⟩
  · have hhas : ¬r.context.tokens.length < dropped := Nat.not_lt.2 (h.position_eq ▸ hle)
    unfold Run.recycle
    simp only [herase]
    rw [if_neg (Nat.not_lt.2 hfits), hdropped, if_neg hhas, hreset]
    simp only
    rw [hall]
  · have hin' := hextends.inLine
    refine ⟨⟨hin'.session, hin'.tokens_begin, hin'.position_eq, hin'.capacity_eq⟩, h.position_eq ▸ hle, hcontext, ?_,
      hextends.evaluated_eq (.inr hnothing), ?_⟩
    · rw [hextends.recycled_eq]
    · rw [hcontext]
      exact hroom

/-- Recycling asks for a share to drop, and for no more room than there is. -/
theorem of_recycle_eq_ok {σ : Type} [Backend σ] {r r' : Run σ} {incoming : Nat} (h : r.recycle incoming = (.ok (), r')) :
    r.context.erase.isSome = true ∧ incoming ≤ r.context.capacity := by
  unfold Run.recycle at h
  dsimp only at h
  split at h
  · cases h
  · rename_i herase
    split at h
    · cases h
    · rename_i hfits
      rw [herase]
      exact ⟨rfl, Nat.not_lt.1 hfits⟩

end Generation
end CausalLM
