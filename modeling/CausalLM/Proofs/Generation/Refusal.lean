import CausalLM.Proofs.Generation.Progress
/-!
# Proofs.Generation.Refusal — a generation that does not start

Everything that can refuse a start comes before the first token is evaluated: options out of range, nothing to go on from,
a prompt that does not fit, and a first piece longer than the whole context (`start_eq_error`).  Where the first piece
goes in all others do, since none is longer.  So the history stays as it was.  The generator is the exception: it is
seeded before the prompt is looked at, and a refused prompt leaves it seeded (`refused_start`).
-/
namespace CausalLM

open Decoder (Engine Session Model)

namespace Generation

/-! ## Pieces -/

theorem length_le_of_mem_chunks {α : Type} {n : Nat} (hn : n ≠ 0) (l : List α) :
    ∀ piece ∈ chunks n l, piece.length ≤ min n l.length := by
  fun_induction chunks n l with
  | case1 => simp
  | case2 a rest ih =>
    intro piece hpiece
    rcases List.mem_cons.1 hpiece with rfl | hpiece
    · simp only [List.length_cons, List.length_take]
      omega
    · have hle := ih piece hpiece
      simp only [List.length_cons, List.length_drop] at hle ⊢
      omega

theorem exists_chunks {α : Type} {n : Nat} (hn : n ≠ 0) {l : List α} (hl : l ≠ []) :
    ∃ piece rest, chunks n l = piece :: rest ∧ piece.length = min n l.length := by
  cases l with
  | nil => exact absurd rfl hl
  | cons a l =>
    refine ⟨_, _, by rw [chunks], ?_⟩
    simp only [List.length_cons, List.length_take]
    omega

theorem batch_ne_zero_of_validate {o : Options} (h : o.validate = .ok ()) : o.batch ≠ 0 := by
  unfold Options.validate at h
  split at h
  · cases h
  · intro hzero
    simp [hzero] at h

/-! ## Feeding -/

theorem feed_of_long {σ : Type} [Backend σ] {r : Run σ} {tokens : List Token} (herase : r.context.erase ≠ none)
    (hlong : r.context.capacity < tokens.length) :
    r.feed tokens = (.error (.error (.contextOverflow 0 tokens.length r.context.capacity)), r) := by
  obtain ⟨fraction, hfraction⟩ := Option.ne_none_iff_exists'.1 herase
  have hrecycle : r.recycle tokens.length =
      (.error (.error (.contextOverflow 0 tokens.length r.context.capacity)), r) := by
    unfold Run.recycle
    simp [hfraction, hlong]
  unfold Run.feed
  rw [if_pos (by omega), hrecycle]

/-- Pieces longer than the context are refused with the first of them. -/
theorem feedAll_chunks_of_long {σ : Type} [Backend σ] {r : Run σ} {n : Nat} {tokens : List Token}
    (herase : r.context.erase ≠ none) (hn : n ≠ 0) (hlong : r.context.capacity < min n tokens.length) :
    r.feedAll (chunks n tokens) = (.error (.error (.contextOverflow 0 (min n tokens.length) r.context.capacity)), r) := by
  have hne : tokens ≠ [] := by
    rintro rfl
    simp at hlong
  obtain ⟨piece, rest, hchunks, hlength⟩ := exists_chunks hn hne
  rw [← hlength] at hlong ⊢
  rw [hchunks, Run.feedAll, feed_of_long herase hlong]

variable {m : Model} {erase : Option Single} {held added : List Token} {r r' : Run Engine} {failure : Failure}

/-- **With a share to drop a prompt goes in or stays outside as a whole.** -/
theorem Conserves.feedAll_chunks (h : Conserves m erase held added r) (herase : erase ≠ none) {n : Nat} (hn : n ≠ 0)
    {tokens : List Token} (hbelow : ∀ t ∈ tokens, t.isBelow m.hyperparameters.vocab = true)
    (hfail : r.feedAll (chunks n tokens) = (.error failure, r')) :
    r' = r ∧ m.hyperparameters.context < min n tokens.length ∧
      failure = .error (.contextOverflow 0 (min n tokens.length) m.hyperparameters.context) := by
  have hflatten := flatten_chunks n tokens
  by_cases hfits : min n tokens.length ≤ m.hyperparameters.context
  · obtain ⟨r'', hall⟩ := h.exists_feedAll_of_fits (ne_nil_of_mem_chunks n tokens) (by rwa [hflatten])
      (fun hnone => absurd hnone herase)
      (fun _ piece hpiece => Nat.le_trans (length_le_of_mem_chunks hn tokens piece hpiece) hfits)
    rw [hfail] at hall
    cases hall
  · have hlong : r.context.capacity < min n tokens.length := by
      rw [h.capacity_eq]
      exact Nat.not_le.1 hfits
    rw [feedAll_chunks_of_long (h.erase_eq ▸ herase) hn hlong] at hfail
    cases hfail
    rw [h.capacity_eq]
    exact ⟨rfl, Nat.not_le.1 hfits, rfl⟩

/-! ## Starting -/

section

variable {e : Engine} {s : Session} {c : Context} {o : Options} {prompt : String} {tokens : List Token}

/-- **Why a prompt is refused** by options that are in range. -/
inductive Unfit (o : Options) (position : Nat) (tokens : List Token) (capacity : Nat) : Error → Prop
  /-- There is nothing to go on from. -/
  | nothing (hprompt : tokens = []) (hposition : position = 0) :
    Unfit o position tokens capacity (.config "prompt produced no tokens")
  /-- The tokens do not fit behind the history, and none of it may be dropped. -/
  | noRoom (herase : o.erase = none) (hover : capacity < position + tokens.length) :
    Unfit o position tokens capacity (.contextOverflow position tokens.length capacity)
  /-- The first piece does not fit into the context alone. -/
  | longPiece (herase : o.erase ≠ none) (hlong : capacity < min o.batch tokens.length) :
    Unfit o position tokens capacity (.contextOverflow 0 (min o.batch tokens.length) capacity)

/-- **A start fails before anything is evaluated**: the options are refused and nothing was touched, or the prompt is and
the first run is what it leaves. -/
theorem start_eq_error (hsession : e.session = some s) (hs : s.Sound) (hbegins : c.tokens <+: e.evaluated)
    (hposition : c.position = c.tokens.length) (hfail : start e c prompt o = .error (failure, r)) :
    ∃ err, failure = .error err ∧ (o.validate = .error err ∧ r = ⟨e, c, 0⟩ ∨
      o.validate = .ok () ∧ r = firstRun e c o ∧
        Unfit o c.position (s.model.tokenizer.encode prompt) s.model.hyperparameters.context err) := by
  have hcapacity : Backend.contextLength e = s.model.hyperparameters.context := Engine.contextLength_eq hsession
  have hbelow := isBelow_encode_of_valid hs.model prompt
  have hfirst := conserves_firstRun (o := o) hsession hs hbegins hposition
  rw [start_eq, prepare_eq hsession, tokenize_firstRun hsession, hcapacity] at hfail
  generalize s.model.tokenizer.encode prompt = tokens at hbelow hfail ⊢
  cases hvalid : o.validate with
  | error err' =>
    rw [hvalid] at hfail
    cases hfail
    exact ⟨err', rfl, .inl ⟨rfl, rfl⟩⟩
  | ok =>
    rw [hvalid] at hfail
    simp only [Except.map] at hfail
    split at hfail
    · rename_i hnothing
      cases hfail
      exact ⟨_, rfl, .inr ⟨rfl, rfl, .nothing (List.isEmpty_iff.1 hnothing.1) hnothing.2⟩⟩
    split at hfail
    · rename_i hroom
      cases hfail
      exact ⟨_, rfl, .inr ⟨rfl, rfl, .noRoom (Option.isNone_iff_eq_none.1 hroom.2) hroom.1⟩⟩
    rename_i hroom
    split at hfail
    · rename_i failure' r' hfeed
      cases hfail
      by_cases hnone : o.erase = none
      · -- without a share to drop the prompt fits, and then all of it goes in
        have hflatten := flatten_chunks o.batch tokens
        have hfits : c.position + tokens.length ≤ s.model.hyperparameters.context :=
          Nat.not_lt.1 fun hover => hroom ⟨hover, by rw [hnone]; rfl⟩
        obtain ⟨r'', hall⟩ := hfirst.exists_feedAll_of_fits (ne_nil_of_mem_chunks o.batch tokens) (by rwa [hflatten])
          (fun _ => by rwa [hflatten, List.append_nil, ← hposition]) (fun hsome => absurd hnone hsome)
        rw [hfeed] at hall
        cases hall
      · obtain ⟨rfl, hlong, rfl⟩ := hfirst.feedAll_chunks hnone (batch_ne_zero_of_validate hvalid) hbelow hfeed
        exact ⟨_, rfl, .inr ⟨rfl, rfl, .longPiece hnone hlong⟩⟩
    · cases hfail

theorem rng_firstRun_eq_iff (e : Engine) (c : Context) (o : Options) :
    (firstRun e c o).backend.rng = e.rng ↔ ∀ seed, o.seed = some seed → e.rng = ⟨UInt64.ofNat seed⟩ := by
  unfold firstRun
  cases o.seed with
  | none => simp
  | some seed =>
    change (⟨UInt64.ofNat seed⟩ : Generator) = e.rng ↔ _
    simp [eq_comm]

/-- **A start that fails leaves the history as it was, and the generator where no seed is set on it.**  From a context in
line with a reachable engine, whatever the prompt, the options and the failure, which is never a panic, the context holds
the tokens it held at the same position, and the engine its session.  What is captured afterwards are the same bytes as
before exactly if the options are out of range or set no other seed than the generator is at. -/
theorem refused_start (h : Engine.Reachable .machine e) (hsession : e.session = some s)
    (hbegins : c.tokens <+: e.evaluated) (hposition : c.position = c.tokens.length)
    (hfail : start e c prompt o = .error (failure, r)) :
    r.context.tokens = c.tokens ∧ r.context.position = c.position ∧ r.recycled = 0 ∧ r.backend.session = e.session ∧
    (∃ err, failure = .error err ∧ (o.validate = .error err ∨ o.validate = .ok () ∧
      Unfit o c.position (s.model.tokenizer.encode prompt) s.model.hyperparameters.context err)) ∧
    (∃ bytes, Backend.capture e = .ok bytes) ∧ (∃ bytes, Backend.capture r.backend = .ok bytes) ∧
    (Backend.capture r.backend = Backend.capture e ↔
      o.validate = .ok () → ∀ seed, o.seed = some seed → e.rng = ⟨UInt64.ofNat seed⟩) := by
  have hs := Engine.sound_of_reachable h s hsession
  have hcaptured : ∃ bytes, Backend.capture e = .ok bytes := ⟨_, Engine.capture_eq hsession hs⟩
  obtain ⟨err, rfl, ⟨hinvalid, rfl⟩ | ⟨hvalid, rfl, hunfit⟩⟩ := start_eq_error hsession hs hbegins hposition hfail
  · refine ⟨rfl, rfl, rfl, rfl, ⟨err, rfl, .inl hinvalid⟩, hcaptured, hcaptured, iff_of_true rfl ?_⟩
    intro hvalid
    rw [hinvalid] at hvalid
    cases hvalid
  · have hsame : (firstRun e c o).backend.session = e.session := session_firstRun e c o
    have hsession' : (firstRun e c o).backend.session = some s := hsame.trans hsession
    refine ⟨rfl, rfl, rfl, hsame, ⟨err, rfl, .inr ⟨hvalid, hunfit⟩⟩, hcaptured, ⟨_, Engine.capture_eq hsession' hs⟩, ?_⟩
    rw [Engine.capture_eq_capture_iff hsession hsession' hs, rng_firstRun_eq_iff]
    simp [hvalid]

end

/-! ### An empty prompt on an empty history -/

theorem start_smallest_eq_error {o : Options} (hvalid : o.validate = .ok ()) :
    start (Engine.smallest 1) (Context.new 2) "" o =
      .error (.error (.config "prompt produced no tokens"), firstRun (Engine.smallest 1) (Context.new 2) o) := by
  obtain ⟨m, v, -, -, hload⟩ := Decoder.load_smallest
  have hs := Engine.sound_of_reachable (Decoder.reachable_smallest .machine 1) _ (hload 1).2
  rw [start_eq, prepare_eq (hload 1).2, tokenize_firstRun (hload 1).2, hvalid, encode_empty hs.model]
  rfl

theorem refused_start_smallest : ∃ r,
    start (Engine.smallest 1) (Context.new 2) "" .default = .error (.error (.config "prompt produced no tokens"), r) ∧
    r.context.tokens = [] ∧ r.context.position = 0 ∧
    Backend.capture r.backend = Backend.capture (Engine.smallest 1) := by
  obtain ⟨m, v, -, htokens, hload⟩ := Decoder.load_smallest
  have hfail := start_smallest_eq_error (o := .default) rfl
  obtain ⟨hheld, hposition, -, -, -, -, -, hcapture⟩ := refused_start (Decoder.reachable_smallest _ 1) (hload 1).2
    (c := Context.new 2) List.nil_prefix rfl hfail
  refine ⟨_, hfail, hheld, hposition, hcapture.2 ?_⟩
  rintro - seed hseed
  cases hseed

/-- **A start that failed leaves another state**: nothing was evaluated, but the generator is at the seed asked for. -/
theorem capture_of_refused_start : ∃ (o : Options) (err : Error) (r : Run Engine),
    Engine.Reachable .machine (Engine.smallest 1) ∧ (Context.new 2).tokens = (Engine.smallest 1).evaluated ∧
    start (Engine.smallest 1) (Context.new 2) "" o = .error (.error err, r) ∧
    Backend.capture r.backend ≠ Backend.capture (Engine.smallest 1) := by
  obtain ⟨m, v, -, htokens, hload⟩ := Decoder.load_smallest
  have hreach := Decoder.reachable_smallest .machine 1
  have hs := Engine.sound_of_reachable hreach _ (hload 1).2
  refine ⟨{ Options.default with seed := some 7 }, _, _, hreach, ?_, start_smallest_eq_error rfl, ?_⟩
  · rw [Engine.evaluated_eq (hload 1).2, htokens]
    rfl
  · rw [ne_eq, Engine.capture_eq_capture_iff (hload 1).2 ((session_firstRun _ _ _).trans (hload 1).2) hs,
      rng_firstRun_eq_iff, Engine.rng_smallest]
    decide

end Generation
end CausalLM
