import CausalLM.Proofs.Container.RoundTrip
import CausalLM.Proofs.Decoder.State
/-!
# Proofs.Decoder.Reach — what every operation of an engine does

`Reachable` are the engines that any operations lead to, `paired_of_reachable` says that they have a model and an
evaluation or neither, and `sound_of_reachable` that what they hold is sound.  It rests on one lemma per operation:
`evaluate_eq` with `admission`, `restore_eq`, `save_eq` and `capture_eq`.
-/
namespace CausalLM.Decoder

variable {k : Kernels}

/-- **A sound session**: a valid model and a sound evaluation with it. -/
structure Session.Sound (s : Session) : Prop where
  model : s.model.Valid
  evaluation : s.evaluation.Sound s.model

/-- The evaluation that takes over a snapshot whose rows were stored. -/
def Evaluation.takeOver (v : Evaluation) (snapshot : Snapshot) (rows : Cache) : Evaluation :=
  let hasLogits := !snapshot.logits.isEmpty
  { v with
    cache := rows.commit snapshot.tokens.length
    tokens := snapshot.tokens
    hasLogits
    logits := if hasLogits then snapshot.logits else v.logits }

namespace Engine

/-- **A model and an evaluation, or neither.** -/
def Paired (e : Engine) : Prop := e.loaded.isSome = e.evaluation.isSome

/-- Whatever the engine holds is sound. -/
def Sound (e : Engine) : Prop := ∀ s ∈ e.session, s.Sound

/-! ## Evaluating -/

/-- What is answered to tokens at a position before anything is evaluated; nothing, if they are to be evaluated. -/
def admission (h : Hyperparameters) (evaluated position : Nat) (tokens : List Token) : Option (Except Error Unit) :=
  if tokens.isEmpty then some (.ok ())
  else if evaluated < position then
    some (.error (.config ("context is at position " ++ toString position ++ " but only " ++ toString evaluated ++
      " tokens were evaluated")))
  else if h.context < position + tokens.length then
    some (.error (.contextOverflow position tokens.length h.context))
  else match findForeign h.vocab tokens with
    | some bad =>
      some (.error (.config ("token " ++ bad.text ++ " outside vocabulary of " ++ toString h.vocab)))
    | none => none

theorem of_admission_eq_none {h : Hyperparameters} {evaluated position : Nat} {tokens : List Token}
    (hnone : admission h evaluated position tokens = none) : tokens ≠ [] ∧ position ≤ evaluated ∧
      position + tokens.length ≤ h.context ∧ ∀ t ∈ tokens, t.isBelow h.vocab = true := by
  rw [admission] at hnone
  split at hnone
  · cases hnone
  rename_i hempty
  split at hnone
  · cases hnone
  rename_i hahead
  split at hnone
  · cases hnone
  rename_i hroom
  split at hnone
  · cases hnone
  rename_i hforeign
  refine ⟨fun hnil => hempty (by rw [hnil]; rfl), Nat.not_lt.1 hahead, Nat.not_lt.1 hroom, fun t ht => ?_⟩
  have := List.find?_eq_none.1 hforeign t ht
  simpa using this

/-- **Known tokens behind what was evaluated are admitted** where there is room for them. -/
theorem admission_eq_none {h : Hyperparameters} {evaluated position : Nat} {tokens : List Token} (hne : tokens ≠ [])
    (hstart : position ≤ evaluated) (hroom : position + tokens.length ≤ h.context)
    (hbelow : ∀ t ∈ tokens, t.isBelow h.vocab = true) : admission h evaluated position tokens = none := by
  have hforeign : findForeign h.vocab tokens = none := by
    rw [findForeign, List.find?_eq_none]
    intro t ht
    simp [hbelow t ht]
  unfold admission
  rw [if_neg (by rwa [List.isEmpty_iff]), if_neg (Nat.not_lt.2 hstart), if_neg (Nat.not_lt.2 hroom), hforeign]

variable {e : Engine} {s : Session}

theorem evaluated_eq (h : e.session = some s) : e.evaluated = s.evaluation.tokens := by
  rw [evaluated, (session_eq_some_iff.1 h).2]
  rfl

theorem contextLength_eq (h : e.session = some s) : e.contextLength = s.model.hyperparameters.context := by
  rw [contextLength, hyperparameters, model?_eq h]
  rfl

/-- **Tokens are answered at once or evaluated**, and then the evaluation is extended by them. -/
theorem evaluate_eq (hsession : e.session = some s) (hs : s.Sound) (c : Context) (tokens : List Token) :
    match admission s.model.hyperparameters s.evaluation.position c.position tokens with
    | some answer => e.evaluate k c tokens = (answer, e, c)
    | none => ∃ v, s.evaluation.Extended k s.model c.position tokens v ∧ e.evaluate k c tokens =
        (.ok (), { e with evaluation := some v },
          { c with tokens := c.tokens.take c.position ++ tokens, position := v.position }) := by
  cases hadmission : admission s.model.hyperparameters s.evaluation.position c.position tokens with
  | some answer =>
    simp only
    rw [admission] at hadmission
    simp only [evaluate, hsession]
    by_cases hempty : tokens.isEmpty = true
    · rw [if_pos hempty] at hadmission ⊢
      cases hadmission
      rfl
    rw [if_neg hempty] at hadmission ⊢
    by_cases hahead : s.evaluation.position < c.position
    · rw [if_pos hahead] at hadmission ⊢
      cases hadmission
      rfl
    rw [if_neg hahead] at hadmission ⊢
    by_cases hroom : s.model.hyperparameters.context < c.position + tokens.length
    · rw [if_pos hroom] at hadmission ⊢
      cases hadmission
      rfl
    rw [if_neg hroom] at hadmission ⊢
    cases hforeign : findForeign s.model.hyperparameters.vocab tokens with
    | some bad =>
      rw [hforeign] at hadmission
      cases hadmission
      rfl
    | none =>
      rw [hforeign] at hadmission
      cases hadmission
  | none =>
    -- every check was passed, so nothing in the pass can fail
    obtain ⟨hne, hstart, hroom, hbelow⟩ := of_admission_eq_none hadmission
    obtain ⟨v, hextend, hextended⟩ := hs.evaluation.exists_extend (k := k) hs.model hne hstart hroom hbelow
    have hempty : ¬tokens.isEmpty = true := by rwa [List.isEmpty_iff]
    have hforeign : findForeign s.model.hyperparameters.vocab tokens = none := by
      rw [findForeign, List.find?_eq_none]
      intro t ht
      rw [hbelow t ht]
      decide
    refine ⟨v, hextended, ?_⟩
    simp only [evaluate, hsession]
    rw [if_neg hempty, if_neg (Nat.not_lt.2 hstart), if_neg (Nat.not_lt.2 hroom), hforeign]
    simp only
    rw [hextend]

/-- **Known tokens are evaluated behind the context's position** where there is room for them. -/
theorem exists_evaluate (hsession : e.session = some s) (hs : s.Sound) {c : Context} {tokens : List Token}
    (hne : tokens ≠ []) (hstart : c.position ≤ s.evaluation.position)
    (hroom : c.position + tokens.length ≤ s.model.hyperparameters.context)
    (hbelow : ∀ t ∈ tokens, t.isBelow s.model.hyperparameters.vocab = true) :
    ∃ v, s.evaluation.Extended k s.model c.position tokens v ∧ e.evaluate k c tokens =
      (.ok (), { e with evaluation := some v },
        { c with tokens := c.tokens.take c.position ++ tokens, position := c.position + tokens.length }) := by
  have heq := evaluate_eq (k := k) hsession hs c tokens
  rw [admission_eq_none hne hstart hroom hbelow] at heq
  obtain ⟨v, hv, heq⟩ := heq
  have hposition : v.position = c.position + tokens.length := by
    have hle : c.position ≤ s.evaluation.tokens.length := hstart
    rw [Evaluation.position, hv.tokens_eq, List.length_append, List.length_take, Nat.min_eq_left hle]
  rw [hposition] at heq
  exact ⟨v, hv, heq⟩

/-! ## Saving and restoring -/

/-- The state of the engine and its session. -/
def stateOf (e : Engine) (s : Session) : Snapshot :=
  .ofCache e.rng.state s.evaluation.tokens s.evaluation.seen s.evaluation.cache

theorem save_eq (hsession : e.session = some s) (buffer : Bytes) : e.save buffer =
    Snapshot.encode s.model.shape e.rng.state s.evaluation.tokens s.evaluation.seen s.evaluation.cache buffer := by
  rw [save, hsession]
  rfl

/-- The size that is told is the one that the tokens and logits at hand take. -/
theorem stateBytes_eq_encodedBytes (hsession : e.session = some s) (hs : s.Sound) :
    e.stateBytes = s.model.shape.encodedBytes s.evaluation.tokens.length s.evaluation.seen.length := by
  rw [stateBytes, hsession, Evaluation.seen]
  simp only
  split
  · rw [hs.evaluation.logits_length]
    rfl
  · rfl

/-- **A sound engine can be captured**, and what is captured are the bytes of its state. -/
theorem capture_eq (hsession : e.session = some s) (hs : s.Sound) :
    Backend.capture e = .ok (Snapshot.bytes s.model.shape (e.stateOf s)) := by
  have hsavable := hs.evaluation.savable hs.model
  have hbytes : Backend.stateBytes e = _ := stateBytes_eq_encodedBytes hsession hs
  have hroom : s.model.shape.encodedBytes s.evaluation.tokens.length s.evaluation.seen.length ≤
      (List.replicate (Backend.stateBytes e) (0 : UInt8)).length :=
    Nat.le_of_eq (by rw [List.length_replicate, hbytes])
  have hencode := Snapshot.encode_eq_ok hsavable e.rng.state hroom
  have hsave : Backend.save e (List.replicate (Backend.stateBytes e) 0) = _ := (save_eq hsession _).trans hencode
  rw [Backend.capture, hsave]
  exact congrArg Except.ok (Snapshot.take_of_encode hsavable hencode).2

/-- **What was captured is read back**, whatever comes behind it. -/
theorem decode_stateOf (hs : s.Sound) (e : Engine) (rest : Bytes) :
    Snapshot.decode s.model.shape (Snapshot.bytes s.model.shape (e.stateOf s) ++ rest) =
      .ok (e.stateOf s, (Snapshot.bytes s.model.shape (e.stateOf s)).length) := by
  have hallocates : s.model.shape.Allocates := fun _ => by
    rw [hs.model.shape]
    exact hs.evaluation.allocates
  exact Snapshot.decode_bytes hs.model.fits hallocates ((hs.evaluation.savable hs.model).valid e.rng.state) rest

/-- Of one session different generators give different bytes. -/
theorem capture_eq_capture_iff {e' : Engine} (hsession : e.session = some s) (hsession' : e'.session = some s)
    (hs : s.Sound) : Backend.capture e' = Backend.capture e ↔ e'.rng = e.rng := by
  rw [capture_eq hsession hs, capture_eq hsession' hs]
  constructor
  · intro h
    have hread := decode_stateOf hs e []
    rw [← Except.ok.inj h, decode_stateOf hs e' []] at hread
    cases hstate : e'.rng
    cases hstate' : e.rng
    have hrng := congrArg (fun p : Snapshot × Nat => p.1.rng) (Except.ok.inj hread)
    simpa [stateOf, Snapshot.ofCache, hstate, hstate'] using hrng
  · intro h
    rw [stateOf, stateOf, h]

/-- **What taking over a state makes of an evaluation.** -/
structure Restored (m : Model) (snapshot : Snapshot) (v : Evaluation) : Prop where
  sound : v.Sound m
  tokens_eq : v.tokens = snapshot.tokens
  history_eq : v.cache.history v.tokens.length = snapshot.keys.zip snapshot.values
  seen_eq : v.seen = snapshot.logits

/-- **What is read can be stored**, from the first layer to the last, and is taken over then. -/
theorem exists_rows (hsession : e.session = some s) (hs : s.Sound) {buffer : Bytes} {snapshot : Snapshot} {used : Nat}
    (hdecode : Snapshot.decode s.model.shape buffer = .ok (snapshot, used)) :
    ∃ rows, Evaluation.loadRows 0 (snapshot.keys.zip snapshot.values) s.evaluation.cache = (.ok (), rows) ∧
      Snapshot.Savable s.model.shape snapshot.tokens snapshot.logits (rows.commit snapshot.tokens.length) ∧
      (rows.commit snapshot.tokens.length).history snapshot.tokens.length = snapshot.keys.zip snapshot.values ∧
      e.restore buffer = (.ok used, { e with
        evaluation := some (s.evaluation.takeOver snapshot rows), rng := ⟨snapshot.rng⟩ }) := by
  obtain ⟨-, hvalid, -, -⟩ := Snapshot.of_decode hdecode
  have hshaped : s.evaluation.cache.Shaped s.model.shape.layers s.model.shape.rowWidth s.model.shape.context := by
    rw [hs.model.shape]
    exact hs.evaluation.shaped
  obtain ⟨rows, hload, hsavable, hof⟩ := Snapshot.exists_load hvalid hshaped
  have hzip := congrArg (fun s : Snapshot => s.keys.zip s.values) hof
  refine ⟨rows, hload, hsavable, (Snapshot.zip_history _ _).symm.trans hzip, ?_⟩
  simp only [restore, hsession, hdecode, hload]
  rfl

/-- **A snapshot is refused, or all of it is taken over.** -/
theorem restore_eq (hsession : e.session = some s) (hs : s.Sound) (buffer : Bytes) :
    match Snapshot.decode s.model.shape buffer with
    | .error err => e.restore buffer = (.error err, e)
    | .ok (snapshot, used) => ∃ v, Restored s.model snapshot v ∧ e.restore buffer =
        (.ok used, { e with evaluation := some v, rng := ⟨snapshot.rng⟩ }) := by
  cases hdecode : Snapshot.decode s.model.shape buffer with
  | error err =>
    simp only [restore, hsession, hdecode]
  | ok p =>
    obtain ⟨snapshot, used⟩ := p
    obtain ⟨-, hvalid, -, -⟩ := Snapshot.of_decode hdecode
    obtain ⟨rows, -, hsavable, hhistory, hrestore⟩ := exists_rows hsession hs hdecode
    have hlogits : snapshot.logits.isEmpty = snapshot.tokens.isEmpty := by
      have hlen := hvalid.tokens_iff_logits
      rw [Bool.eq_iff_iff, beq_iff_eq, beq_iff_eq] at hlen
      rw [Bool.eq_iff_iff, List.isEmpty_iff_length_eq_zero, List.isEmpty_iff_length_eq_zero, hlen]
    refine ⟨s.evaluation.takeOver snapshot rows, ⟨?_, rfl, hhistory, ?_⟩, hrestore⟩
    · have hshaped := hsavable.shaped
      have hle := hvalid.tokens_le
      have hbelow := hvalid.tokens_below
      have hlen := hvalid.logits_length
      rw [hs.model.shape] at hshaped hle hbelow hlen
      refine ⟨hshaped, hsavable.length_eq, hle, hbelow, ?_, congrArg (!·) hlogits, hs.evaluation.sized,
        hs.evaluation.allocates⟩
      rw [Evaluation.takeOver]
      by_cases hempty : snapshot.logits.isEmpty = true
      · simp only [hempty, Bool.not_true, Bool.false_eq_true, if_false]
        exact hs.evaluation.logits_length
      · have htokens : snapshot.tokens ≠ [] := by rwa [hlogits, List.isEmpty_iff] at hempty
        rw [if_neg htokens] at hlen
        simp only [hempty, Bool.not_false, if_true]
        exact hlen
    · rw [Evaluation.seen, Evaluation.takeOver]
      cases snapshot.logits <;> rfl

/-- A refused snapshot changes nothing. -/
theorem restore_of_error (hsession : e.session = some s) (hs : s.Sound) {buffer : Bytes} {err : Error}
    (hfail : (e.restore buffer).1 = .error err) : (e.restore buffer).2 = e := by
  have heq := restore_eq hsession hs buffer
  split at heq
  · rw [heq]
  · obtain ⟨v, -, heq⟩ := heq
    rw [heq] at hfail
    cases hfail

/-! ## Reachable engines -/

theorem exists_of_load {files : Files} {path : String} {loading : Nat} {e' : Engine}
    (hok : e.load files path loading = (.ok (), e')) :
    ∃ s, e'.session = some s ∧ s.Sound ∧ Evaluation.new s.model.hyperparameters = .ok s.evaluation := by
  rw [load] at hok
  split at hok
  · cases hok
  rename_i model evaluation hread
  cases hok
  simp only [bind_eq_ok_iff] at hread
  obtain ⟨file, -, model, hmodel, evaluation, hevaluation, hread⟩ := hread
  cases hread
  have hm := Model.valid_of_ofFile hmodel
  exact ⟨_, rfl, ⟨hm, Evaluation.sound_new hm hevaluation⟩, hevaluation⟩

theorem exists_of_share {other : Engine} {seed : UInt64} (hok : other.share seed = .ok e) :
    ∃ m t, other.model? = some m ∧ e.session = some t ∧ t.model = m ∧
      Evaluation.new t.model.hyperparameters = .ok t.evaluation := by
  rw [share] at hok
  split at hok
  · cases hok
  rename_i m hloaded
  obtain ⟨evaluation, hevaluation, hok⟩ := bind_eq_ok_iff.1 hok
  cases hok
  refine ⟨m.model, ⟨m.model, m.loading, evaluation⟩, ?_, rfl, rfl, hevaluation⟩
  rw [model?, hloaded]
  rfl

/-- **The engines that operations lead to**, in any order and with any arguments, also where they fail. -/
inductive Reachable (k : Kernels) : Engine → Prop
  | new (seed : UInt64) (threads : Nat) : Reachable k (new seed threads)
  | load {e : Engine} (h : Reachable k e) (files : Files) (path : String) (loading : Nat) :
    Reachable k (e.load files path loading).2
  | unload {e : Engine} (h : Reachable k e) : Reachable k e.unload
  | share {e other : Engine} {seed : UInt64} (h : Reachable k other) (hok : other.share seed = .ok e) : Reachable k e
  | setThreads {e : Engine} (h : Reachable k e) (n : Nat) : Reachable k (e.setThreads n)
  | setSeed {e : Engine} (h : Reachable k e) (seed : UInt64) : Reachable k (Backend.setSeed e seed)
  | evaluate {e : Engine} (h : Reachable k e) (c : Context) (tokens : List Token) :
    Reachable k (e.evaluate k c tokens).2.1
  | sample {e : Engine} (h : Reachable k e) (c : Context) : Reachable k (e.sample c).2
  | reset {e : Engine} (h : Reachable k e) : Reachable k e.reset.2
  | restore {e : Engine} (h : Reachable k e) (buffer : Bytes) : Reachable k (e.restore buffer).2

/-! ## Model and evaluation together -/

theorem Paired.exists_session (h : e.Paired) {m : Model} (hm : e.model? = some m) :
    ∃ s, e.session = some s ∧ s.model = m := by
  obtain ⟨l, hloaded, rfl⟩ := Option.map_eq_some_iff.1 hm
  obtain ⟨v, hv⟩ := Option.isSome_iff_exists.1 (h.symm.trans (congrArg Option.isSome hloaded))
  exact ⟨⟨l.model, l.loading, v⟩, session_eq_some_iff.2 ⟨hloaded, hv⟩, rfl⟩

/-- An evaluation that takes the place of another leaves the two together. -/
theorem paired_of_session {e' : Engine} {v : Evaluation} (h : e.session = some s) (hloaded : e'.loaded = e.loaded)
    (hv : e'.evaluation = some v) : e'.Paired := by
  rw [Paired, hloaded, hv, (session_eq_some_iff.1 h).1]
  rfl

theorem paired_load (e : Engine) (files : Files) (path : String) (loading : Nat) :
    (e.load files path loading).2.Paired := by
  unfold load
  dsimp only
  split <;> rfl

theorem paired_share {other : Engine} {seed : UInt64} (hok : other.share seed = .ok e) : e.Paired := by
  obtain ⟨m, t, -, hsession, -⟩ := exists_of_share hok
  obtain ⟨hloaded, hv⟩ := session_eq_some_iff.1 hsession
  rw [Paired, hloaded, hv]
  rfl

theorem Paired.evaluate (h : e.Paired) (c : Context) (tokens : List Token) : (e.evaluate k c tokens).2.1.Paired := by
  unfold Engine.evaluate
  split
  · exact h
  rename_i s hsession
  dsimp only
  split
  · exact h
  split
  · exact h
  split
  · exact h
  split
  · exact h
  · split
    · exact paired_of_session hsession rfl rfl
    · exact paired_of_session hsession rfl rfl

theorem Paired.sample (h : e.Paired) (c : Context) : (e.sample c).2.Paired := by
  unfold Engine.sample
  split
  · exact h
  · split
    · exact h
    · exact h

theorem Paired.reset (h : e.Paired) : e.reset.2.Paired := by
  unfold Engine.reset
  split
  · exact h
  · rename_i v hv
    rw [Paired, hv] at h
    exact h

theorem Paired.restore (h : e.Paired) (buffer : Bytes) : (e.restore buffer).2.Paired := by
  unfold Engine.restore
  split
  · exact h
  rename_i s hsession
  split
  · exact h
  · dsimp only
    split
    · exact paired_of_session hsession rfl rfl
    · exact paired_of_session hsession rfl rfl

/-- **A reachable engine has a model and an evaluation, or neither.** -/
theorem paired_of_reachable (h : Reachable k e) : e.Paired := by
  induction h with
  | new seed threads => rfl
  | load h files path loading ih => exact paired_load _ files path loading
  | unload h ih => rfl
  | share h hok ih => exact paired_share hok
  | setThreads h n ih => exact ih
  | setSeed h seed ih => exact ih
  | evaluate h c tokens ih => exact ih.evaluate c tokens
  | sample h c ih => exact ih.sample c
  | reset h ih => exact ih.reset
  | restore h buffer ih => exact ih.restore buffer

/-! ## Soundness -/

theorem sound_none (h : e.session = none) : e.Sound := fun s hs => by rw [h] at hs; cases hs

theorem sound_some (h : e.session = some s) (hs : s.Sound) : e.Sound := fun t ht => by
  rw [h] at ht
  cases ht
  exact hs

theorem session_sample (e : Engine) (c : Context) : (e.sample c).2.session = e.session := by
  rw [sample]
  split
  · rfl
  · split <;> rfl

theorem evaluated_sample (e : Engine) (c : Context) : (e.sample c).2.evaluated = e.evaluated := by
  rw [sample]
  split
  · rfl
  · split <;> rfl

theorem rng_evaluate (k : Kernels) (e : Engine) (c : Context) (tokens : List Token) :
    (e.evaluate k c tokens).2.1.rng = e.rng := by
  unfold evaluate
  split
  · rfl
  · dsimp only
    split
    · rfl
    split
    · rfl
    split
    · rfl
    split
    · rfl
    · split <;> rfl

theorem rng_of_reset {e' : Engine} (h : e.reset = (.ok (), e')) : e'.rng = e.rng := by
  unfold reset at h
  split at h
  · cases h
  · cases h
    rfl

theorem Sound.load (e : Engine) (files : Files) (path : String) (loading : Nat) :
    (e.load files path loading).2.Sound := by
  cases hload : e.load files path loading with
  | mk answer e' =>
    cases answer with
    | error err =>
      rw [Engine.load] at hload
      split at hload
      · cases hload
        exact sound_none rfl
      · cases hload
    | ok =>
      obtain ⟨s, hsession, hs, -⟩ := exists_of_load hload
      exact sound_some hsession hs

theorem Sound.share {other : Engine} {seed : UInt64} (h : other.Sound) (hpaired : other.Paired)
    (hok : other.share seed = .ok e) : e.Sound := by
  obtain ⟨m, t, hother, hsession, hmodel, hnew⟩ := exists_of_share hok
  obtain ⟨s, hs, rfl⟩ := hpaired.exists_session hother
  have hm : t.model.Valid := by
    rw [hmodel]
    exact (h s hs).model
  exact sound_some hsession ⟨hm, Evaluation.sound_new hm hnew⟩

theorem Sound.evaluate (h : e.Sound) (c : Context) (tokens : List Token) : (e.evaluate k c tokens).2.1.Sound := by
  cases hsession : e.session with
  | none =>
    rw [Engine.evaluate, hsession]
    exact sound_none hsession
  | some s =>
    have hs := h s hsession
    have heq := evaluate_eq (k := k) hsession hs c tokens
    split at heq
    · rw [heq]
      exact h
    · obtain ⟨v, hv, heq⟩ := heq
      rw [heq]
      exact sound_some (session_of_loaded_eq hsession rfl rfl) ⟨hs.model, hv.sound⟩

theorem reset_eq (hsession : e.session = some s) :
    e.reset = (.ok (), { e with evaluation := some s.evaluation.clear }) := by
  rw [reset, (session_eq_some_iff.1 hsession).2]

theorem session_reset_of_none (h : e.session = none) : e.reset.2.session = none := by
  obtain ⟨loaded, evaluation, rng, threads⟩ := e
  cases loaded with
  | none => cases evaluation <;> rfl
  | some m =>
    cases evaluation with
    | none => rfl
    | some v => cases h

theorem Sound.reset (h : e.Sound) : e.reset.2.Sound := by
  cases hsession : e.session with
  | none => exact sound_none (session_reset_of_none hsession)
  | some s =>
    have hs := h s hsession
    rw [reset_eq hsession]
    exact sound_some (session_of_loaded_eq hsession rfl rfl) ⟨hs.model, hs.evaluation.clear⟩

theorem Sound.restore (h : e.Sound) (buffer : Bytes) : (e.restore buffer).2.Sound := by
  cases hsession : e.session with
  | none =>
    rw [Engine.restore, hsession]
    exact sound_none hsession
  | some s =>
    have hs := h s hsession
    have heq := restore_eq hsession hs buffer
    split at heq
    · rw [heq]
      exact h
    · obtain ⟨v, hv, heq⟩ := heq
      rw [heq]
      exact sound_some (session_of_loaded_eq hsession rfl rfl) ⟨hs.model, hv.sound⟩

/-- **Every reachable engine is sound.** -/
theorem sound_of_reachable (h : Reachable k e) : e.Sound := by
  induction h with
  | new seed threads => exact sound_none rfl
  | load h files path loading ih => exact Sound.load _ files path loading
  | unload h ih => exact sound_none rfl
  | share h hok ih => exact ih.share (paired_of_reachable h) hok
  | setThreads h n ih => exact ih
  | setSeed h seed ih => exact ih
  | evaluate h c tokens ih => exact ih.evaluate c tokens
  | sample h c ih => exact fun s hs => ih s (by rwa [session_sample] at hs)
  | reset h ih => exact ih.reset
  | restore h buffer ih => exact ih.restore buffer

end Engine

/-! ## A model that loads -/

open Container

/-- A tensor of ones. -/
def ones (name : String) (dims : List Nat) : Draft.Tensor :=
  .ofSingles name dims (List.replicate (dims.foldl (· * ·) 1) .one)

/-- **The smallest model**: one layer of width one, a context of two positions and two tokens. -/
def smallest : Draft where
  pairs := [
    ("general.architecture", .string "starcoder"),
    ("starcoder.context_length", .word32 2),
    ("starcoder.embedding_length", .word32 1),
    ("starcoder.block_count", .word32 1),
    ("starcoder.attention.head_count", .word32 1),
    ("tokenizer.ggml.tokens", .strings ["a", "b"])]
  tensors := [
    ones "token_embd.weight" [1, 2], ones "position_embd.weight" [1, 2],
    ones "output_norm.weight" [1], ones "output_norm.bias" [1],
    ones "blk.0.attn_norm.weight" [1], ones "blk.0.attn_norm.bias" [1],
    ones "blk.0.attn_qkv.weight" [1, 3], ones "blk.0.attn_qkv.bias" [3],
    ones "blk.0.attn_output.weight" [1, 1], ones "blk.0.attn_output.bias" [1],
    ones "blk.0.ffn_norm.weight" [1], ones "blk.0.ffn_norm.bias" [1],
    ones "blk.0.ffn_up.weight" [1, 4], ones "blk.0.ffn_up.bias" [4],
    ones "blk.0.ffn_down.weight" [4, 1], ones "blk.0.ffn_down.bias" [1]]

/-- The sizes of the smallest model. -/
def smallestSizes : Hyperparameters := ⟨"starcoder", 2, 2, 1, 1, 1, 1, 4, Hyperparameters.defaultEpsilon⟩

theorem readable_smallest : smallest.Readable := by decide +kernel

theorem ofFile_smallest :
    (Model.ofFile "smallest" smallest.bytes).toOption.map Model.hyperparameters = some smallestSizes := by
  rw [Model.ofFile, Model.readHeader, parse_bytes readable_smallest]
  decide +kernel

/-- An engine with the smallest model. -/
def Engine.smallest (seed : UInt64) : Engine :=
  ((Engine.new seed 1).load (fun _ => some Decoder.smallest.bytes) "smallest" 0).2

theorem Engine.rng_load (e : Engine) (files : Files) (path : String) (loading : Nat) :
    (e.load files path loading).2.rng = e.rng := by
  unfold Engine.load
  dsimp only
  split <;> rfl

theorem Engine.rng_smallest (seed : UInt64) : (Engine.smallest seed).rng = ⟨seed⟩ := Engine.rng_load _ _ _ _

theorem load_eq {path : String} {file : Bytes} {m : Model} {v : Evaluation} (hm : Model.ofFile path file = .ok m)
    (hv : Evaluation.new m.hyperparameters = .ok v) (seed : UInt64) :
    (Engine.new seed 1).load (fun _ => some file) path 0 = (.ok (), ⟨some ⟨m, 0⟩, some v, ⟨seed⟩, 1⟩) := by
  simp only [Engine.load, Files.read, bind, Except.bind, hm, hv]
  rfl

/-- A file with a model of known sizes, for which there is room, loads. -/
theorem exists_load {path : String} {file : Bytes} {sizes : Hyperparameters} {v : Evaluation}
    (hsizes : (Model.ofFile path file).toOption.map Model.hyperparameters = some sizes)
    (hv : Evaluation.new sizes = .ok v) : ∃ m, Model.ofFile path file = .ok m ∧ m.hyperparameters = sizes ∧
    ∀ seed : UInt64, (Engine.new seed 1).load (fun _ => some file) path 0 = (.ok (), ⟨some ⟨m, 0⟩, some v, ⟨seed⟩, 1⟩) := by
  cases hm : Model.ofFile path file with
  | error e =>
    rw [hm] at hsizes
    cases hsizes
  | ok m =>
    rw [hm] at hsizes
    have hsizes' : m.hyperparameters = sizes := Option.some.inj hsizes
    rw [← hsizes'] at hv
    exact ⟨m, rfl, hsizes', load_eq hm hv⟩

/-- **The smallest model loads**, so engines with a model are reachable. -/
theorem load_smallest : ∃ m v, m.hyperparameters = smallestSizes ∧ v.tokens = [] ∧ ∀ seed : UInt64,
    (Engine.new seed 1).load (fun _ => some smallest.bytes) "smallest" 0 = (.ok (), Engine.smallest seed) ∧
      (Engine.smallest seed).session = some ⟨m, 0, v⟩ := by
  obtain ⟨v, hv⟩ : ∃ v, Evaluation.new smallestSizes = .ok v := ⟨_, rfl⟩
  obtain ⟨m, -, hsizes, hload⟩ := exists_load ofFile_smallest hv
  have htokens : v.tokens = [] := by
    cases hv
    rfl
  refine ⟨m, v, hsizes, htokens, fun seed => ?_⟩
  rw [Engine.smallest, hload]
  exact ⟨rfl, rfl⟩

theorem reachable_smallest (k : Kernels) (seed : UInt64) : Engine.Reachable k (Engine.smallest seed) :=
  .load (.new seed 1) _ _ _

theorem evaluate_smallest (k : Kernels) {m : Model} {v : Evaluation} {seed : UInt64}
    (hsizes : m.hyperparameters = smallestSizes) (htokens : v.tokens = [])
    (hsession : (Engine.smallest seed).session = some ⟨m, 0, v⟩) :
    ∃ v', ((Engine.smallest seed).evaluate k (Context.new 2) [.ofIndex 1]).2.1.session = some ⟨m, 0, v'⟩ ∧
      v'.tokens = [.ofIndex 1] := by
  have hs := Engine.sound_of_reachable (reachable_smallest k seed) _ hsession
  obtain ⟨v', hv', heq⟩ := Engine.exists_evaluate (k := k) hsession hs (c := Context.new 2)
    (List.cons_ne_nil (.ofIndex 1) []) (Nat.zero_le _) (by rw [hsizes]; decide) (by rw [hsizes]; decide)
  refine ⟨v', ?_, ?_⟩
  · rw [heq]
    exact Engine.session_of_loaded_eq hsession rfl rfl
  · rw [hv'.tokens_eq, htokens]
    rfl

end CausalLM.Decoder
