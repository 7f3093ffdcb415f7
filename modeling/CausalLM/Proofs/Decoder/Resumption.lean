import CausalLM.Proofs.Decoder.Reach
/-!
# Proofs.Decoder.Resumption — a resumed evaluation goes on as the saved one would have

Two engines over one model are `Alike` if what they hold differs at most in what is not read: stale rows, stale logits
and buffers.  Every command gives alike engines the same answer and leaves them alike (`run_alike`), so whole traces
are the same.  Capturing one engine and resuming another makes the second alike the first (`resume_capture`).
-/
namespace CausalLM.Decoder

variable {k : Kernels}

/-! ## Commands -/

/-- **What can be asked of an engine** that has a model, and of the context that goes with it. -/
inductive Command where
  | evaluate (tokens : List Token)
  /-- Lets the context go back to its first `n` tokens. -/
  | rewind (n : Nat)
  | sampling (p : Sampling)
  | sample
  | reset
  | capture
  | restore (buffer : Bytes)
  /-- Restores, and brings the context in line. -/
  | resume (buffer : Bytes)
  | setSeed (seed : UInt64)

/-- **An answer** to a command. -/
inductive Answer where
  | done (r : Except Error Unit)
  | token (r : Except Error Token)
  | bytes (r : Except Error Bytes)
  | count (r : Except Error Nat)

/-- One command: the answer, and engine and context afterwards. -/
def Command.run (k : Kernels) (e : Engine) (c : Context) : Command → Answer × Engine × Context
  | .evaluate tokens => let (r, e, c) := e.evaluate k c tokens; (.done r, e, c)
  | .rewind n => (.done (.ok ()), e, c.truncate n)
  | .sampling p => (.done (.ok ()), e, c.withSampling p)
  | .sample => let (r, e) := e.sample c; (.token r, e, c)
  | .reset => let (r, e) := e.reset; (.done r, e, c)
  | .capture => (.bytes (Backend.capture e), e, c)
  | .restore buffer => let (r, e) := e.restore buffer; (.count r, e, c)
  | .resume buffer => let (r, e, c) := Backend.resume e c buffer; (.done r, e, c)
  | .setSeed seed => (.done (.ok ()), Backend.setSeed e seed, c)

/-- **What is seen after a command**: its answer, the evaluated tokens, what capturing now would give, and the history
of the context. -/
structure Observation where
  answer : Answer
  evaluated : List Token
  captured : Except Error Bytes
  tokens : List Token
  position : Nat

/-- What is seen of commands in turn. -/
def trace (k : Kernels) (e : Engine) (c : Context) : List Command → List Observation
  | [] => []
  | command :: rest =>
    let (answer, e, c) := command.run k e c
    ⟨answer, e.evaluated, Backend.capture e, c.tokens, c.position⟩ :: trace k e c rest

/-! ## Alike engines -/

/-- **Two sound engines over one model that agree** in the generator and in all of their evaluations that is read. -/
def Engine.Alike (a b : Engine) : Prop :=
  ∃ s t, a.session = some s ∧ b.session = some t ∧ s.Sound ∧ t.Sound ∧ s.model = t.model ∧
    s.evaluation.Agrees t.evaluation ∧ a.rng = b.rng

/-- Two contexts with the same history and the same knobs. -/
structure SameHistory (c d : Context) : Prop where
  tokens_eq : c.tokens = d.tokens
  position_eq : c.position = d.position
  sampling_eq : c.sampling = d.sampling

variable {a b : Engine} {c d : Context}

theorem Evaluation.Agrees.history_of_le {m : Model} {v w : Evaluation} (h : v.Agrees w) (hv : v.Sound m)
    (hw : w.Sound m) {n : Nat} (hn : n ≤ v.tokens.length) : v.cache.history n = w.cache.history n := by
  rw [v.cache.history_of_le hn, w.cache.history_of_le (show n ≤ w.tokens.length by rwa [← h.tokens_eq]),
    h.history_eq, hv.shaped.rowWidth_eq, hw.shaped.rowWidth_eq]

theorem Evaluation.Agrees.extended {m : Model} {v w v' w' : Evaluation} (h : v.Agrees w) (hv : v.Sound m)
    (hw : w.Sound m) {start : Nat} {tokens : List Token} (hstart : start ≤ v.tokens.length)
    (hv' : v.Extended k m start tokens v') (hw' : w.Extended k m start tokens w') : v'.Agrees w' := by
  have hhistory := h.history_of_le hv hw hstart
  refine ⟨?_, ?_, ?_⟩
  · rw [hv'.tokens_eq, hw'.tokens_eq, h.tokens_eq]
  · rw [hv'.history_eq, hw'.history_eq, hhistory]
  · rw [hv'.seen_eq, hw'.seen_eq, hhistory]

theorem Engine.Alike.evaluated_eq (h : a.Alike b) : a.evaluated = b.evaluated := by
  obtain ⟨s, t, ha, hb, -, -, -, hagree, -⟩ := h
  rw [Engine.evaluated_eq ha, Engine.evaluated_eq hb]
  exact hagree.tokens_eq

theorem Engine.Alike.capture_eq (h : a.Alike b) : Backend.capture a = Backend.capture b := by
  obtain ⟨s, t, ha, hb, hs, ht, hmodel, hagree, hrng⟩ := h
  have hstate : a.stateOf s = b.stateOf t := by
    rw [stateOf, stateOf, Snapshot.ofCache, Snapshot.ofCache, hagree.history_eq, hagree.tokens_eq, hagree.seen_eq, hrng]
  rw [Engine.capture_eq ha hs, Engine.capture_eq hb ht, hmodel, hstate]

/-! ## One command -/

theorem Engine.Alike.evaluate (h : a.Alike b) (hc : SameHistory c d) (tokens : List Token) :
    (a.evaluate k c tokens).1 = (b.evaluate k d tokens).1 ∧
      (a.evaluate k c tokens).2.1.Alike (b.evaluate k d tokens).2.1 ∧
      SameHistory (a.evaluate k c tokens).2.2 (b.evaluate k d tokens).2.2 := by
  have halike := h
  obtain ⟨s, t, ha, hb, hs, ht, hmodel, hagree, hrng⟩ := h
  have hposition : t.evaluation.position = s.evaluation.position := by
    rw [Evaluation.position, Evaluation.position, hagree.tokens_eq]
  have hevalA := Engine.evaluate_eq (k := k) ha hs c tokens
  have hevalB := Engine.evaluate_eq (k := k) hb ht d tokens
  rw [← hmodel, hposition, ← hc.position_eq] at hevalB
  cases hadmission : Engine.admission s.model.hyperparameters s.evaluation.position c.position tokens with
  | some answer =>
    rw [hadmission] at hevalA hevalB
    simp only at hevalA hevalB
    rw [hevalA, hevalB]
    exact ⟨rfl, halike, hc⟩
  | none =>
    obtain ⟨-, hstart, -, -⟩ := Engine.of_admission_eq_none hadmission
    rw [hadmission] at hevalA hevalB
    obtain ⟨v, hv, hevalA⟩ := hevalA
    obtain ⟨w, hw, hevalB⟩ := hevalB
    have ht' : t.evaluation.Sound s.model := by
      rw [hmodel]
      exact ht.evaluation
    have hagree' := hagree.extended hs.evaluation ht' hstart hv hw
    rw [hevalA, hevalB]
    refine ⟨rfl, ⟨_, _, session_of_loaded_eq ha rfl rfl, session_of_loaded_eq hb rfl rfl, ⟨hs.model, hv.sound⟩,
      ⟨ht.model, hmodel ▸ hw.sound⟩, hmodel, hagree', hrng⟩, ?_, ?_, ?_⟩
    · show c.tokens.take c.position ++ tokens = d.tokens.take c.position ++ tokens
      rw [hc.tokens_eq]
    · exact congrArg List.length hagree'.tokens_eq
    · exact hc.sampling_eq

theorem Engine.Alike.sample (h : a.Alike b) (hc : SameHistory c d) :
    (a.sample c).1 = (b.sample d).1 ∧ (a.sample c).2.Alike (b.sample d).2 := by
  obtain ⟨s, t, ha, hb, hs, ht, hmodel, hagree, hrng⟩ := h
  have hhas : t.evaluation.hasLogits = s.evaluation.hasLogits := by
    rw [ht.evaluation.hasLogits_eq, hs.evaluation.hasLogits_eq, hagree.tokens_eq]
  have hwindow : d.window = c.window := by
    rw [Context.window, Context.window, hc.tokens_eq, hc.sampling_eq]
  rw [Engine.sample, Engine.sample, ha, hb]
  simp only [hhas]
  -- logits that are not those of the last token may differ, but then no engine is ready to sample
  by_cases hlogits : s.evaluation.hasLogits = true
  · have hseen := hagree.seen_eq
    rw [Evaluation.seen, Evaluation.seen, hhas, if_pos hlogits, if_pos hlogits] at hseen
    rw [hlogits]
    simp only [Bool.not_true, Bool.false_eq_true, if_false, ← hseen, ← hrng, hwindow, ← hc.sampling_eq]
    exact ⟨trivial, s, t, ha, hb, hs, ht, hmodel, hagree, rfl⟩
  · rw [Bool.not_eq_true] at hlogits
    rw [hlogits]
    exact ⟨rfl, s, t, ha, hb, hs, ht, hmodel, hagree, hrng⟩

theorem Engine.Alike.reset (h : a.Alike b) : a.reset.1 = b.reset.1 ∧ a.reset.2.Alike b.reset.2 := by
  obtain ⟨s, t, ha, hb, hs, ht, hmodel, hagree, hrng⟩ := h
  rw [Engine.reset_eq ha, Engine.reset_eq hb]
  have ht' : t.evaluation.Sound s.model := by
    rw [hmodel]
    exact ht.evaluation
  have hhistory := hagree.history_of_le hs.evaluation ht' (Nat.zero_le _)
  exact ⟨rfl, _, _, session_of_loaded_eq ha rfl rfl, session_of_loaded_eq hb rfl rfl, ⟨hs.model, hs.evaluation.clear⟩,
    ⟨ht.model, ht.evaluation.clear⟩, hmodel, ⟨rfl, hhistory, rfl⟩, hrng⟩

/-- Evaluations that took over one state agree, whatever they were before. -/
theorem Engine.Restored.agrees {m : Model} {snapshot : Snapshot} {v w : Evaluation} (hv : Restored m snapshot v)
    (hw : Restored m snapshot w) : v.Agrees w :=
  ⟨hv.tokens_eq.trans hw.tokens_eq.symm, hv.history_eq.trans hw.history_eq.symm, hv.seen_eq.trans hw.seen_eq.symm⟩

theorem Engine.Alike.restore (h : a.Alike b) (buffer : Bytes) :
    (a.restore buffer).1 = (b.restore buffer).1 ∧ (a.restore buffer).2.Alike (b.restore buffer).2 := by
  have halike := h
  obtain ⟨s, t, ha, hb, hs, ht, hmodel, hagree, hrng⟩ := h
  have hrestoreA := Engine.restore_eq ha hs buffer
  have hrestoreB := Engine.restore_eq hb ht buffer
  rw [← hmodel] at hrestoreB
  cases hdecode : Snapshot.decode s.model.shape buffer with
  | error e =>
    rw [hdecode] at hrestoreA hrestoreB
    simp only at hrestoreA hrestoreB
    rw [hrestoreA, hrestoreB]
    exact ⟨rfl, halike⟩
  | ok p =>
    rw [hdecode] at hrestoreA hrestoreB
    obtain ⟨v, hv, hrestoreA⟩ := hrestoreA
    obtain ⟨w, hw, hrestoreB⟩ := hrestoreB
    rw [hrestoreA, hrestoreB]
    exact ⟨rfl, _, _, session_of_loaded_eq ha rfl rfl, session_of_loaded_eq hb rfl rfl, ⟨hs.model, hv.sound⟩,
      ⟨ht.model, hmodel ▸ hw.sound⟩, hmodel, hv.agrees hw, rfl⟩

theorem Engine.Alike.resume (h : a.Alike b) (hc : SameHistory c d) (buffer : Bytes) :
    (Backend.resume a c buffer).1 = (Backend.resume b d buffer).1 ∧
      (Backend.resume a c buffer).2.1.Alike (Backend.resume b d buffer).2.1 ∧
      SameHistory (Backend.resume a c buffer).2.2 (Backend.resume b d buffer).2.2 := by
  obtain ⟨hanswer, halike⟩ := h.restore buffer
  have hA : Backend.restore a buffer = ((a.restore buffer).1, (a.restore buffer).2) := rfl
  have hB : Backend.restore b buffer = ((a.restore buffer).1, (b.restore buffer).2) := by rw [hanswer]; rfl
  rw [Backend.resume, Backend.resume, hA, hB]
  cases (a.restore buffer).1 with
  | error e => exact ⟨rfl, halike, hc⟩
  | ok n =>
    exact ⟨rfl, halike, halike.evaluated_eq, congrArg List.length halike.evaluated_eq, hc.sampling_eq⟩

/-- **A command gives alike engines the same answer and leaves them alike.** -/
theorem run_alike (h : a.Alike b) (hc : SameHistory c d) (command : Command) :
    (command.run k a c).1 = (command.run k b d).1 ∧ (command.run k a c).2.1.Alike (command.run k b d).2.1 ∧
      SameHistory (command.run k a c).2.2 (command.run k b d).2.2 := by
  cases command with
  | evaluate tokens =>
    obtain ⟨hanswer, halike, hhistory⟩ := h.evaluate (k := k) hc tokens
    exact ⟨congrArg Answer.done hanswer, halike, hhistory⟩
  | rewind n =>
    refine ⟨rfl, h, ?_, ?_, hc.sampling_eq⟩
    · exact congrArg (List.take n) hc.tokens_eq
    · exact congrArg (fun ts : List Token => (ts.take n).length) hc.tokens_eq
  | sampling p => exact ⟨rfl, h, hc.tokens_eq, hc.position_eq, rfl⟩
  | sample =>
    obtain ⟨hanswer, halike⟩ := h.sample hc
    exact ⟨congrArg Answer.token hanswer, halike, hc⟩
  | reset =>
    obtain ⟨hanswer, halike⟩ := h.reset
    exact ⟨congrArg Answer.done hanswer, halike, hc⟩
  | capture => exact ⟨congrArg Answer.bytes h.capture_eq, h, hc⟩
  | restore buffer =>
    obtain ⟨hanswer, halike⟩ := h.restore buffer
    exact ⟨congrArg Answer.count hanswer, halike, hc⟩
  | resume buffer =>
    obtain ⟨hanswer, halike, hhistory⟩ := h.resume hc buffer
    exact ⟨congrArg Answer.done hanswer, halike, hhistory⟩
  | setSeed seed =>
    obtain ⟨s, t, ha, hb, hs, ht, hmodel, hagree, -⟩ := h
    exact ⟨rfl, ⟨s, t, ha, hb, hs, ht, hmodel, hagree, rfl⟩, hc⟩

/-- **The traces of alike engines are the same.** -/
theorem trace_alike : ∀ (commands : List Command) {a b : Engine} {c d : Context}, a.Alike b → SameHistory c d →
    trace k a c commands = trace k b d commands
  | [], _, _, _, _, _, _ => rfl
  | command :: rest, a, b, c, d, h, hc => by
    obtain ⟨hanswer, halike, hhistory⟩ := run_alike (k := k) h hc command
    rw [trace, trace]
    simp only
    rw [hanswer, halike.evaluated_eq, halike.capture_eq, hhistory.tokens_eq, hhistory.position_eq,
      trace_alike rest halike hhistory]

/-! ## Capturing and resuming -/

/-- Taking over the state of another engine over the same model makes an engine alike it. -/
theorem exists_restore {s t : Session} (ha : a.session = some s) (hb : b.session = some t) (hs : s.Sound) (ht : t.Sound)
    (hmodel : s.model = t.model) (rest : Bytes) :
    ∃ n b', b.restore (Snapshot.bytes s.model.shape (a.stateOf s) ++ rest) = (.ok n, b') ∧ a.Alike b' := by
  have hdecode := Engine.decode_stateOf hs a rest
  -- the buffer is a variable from here on, so that nothing tries to read it
  obtain ⟨buffer, hbuffer⟩ : ∃ buffer, buffer = Snapshot.bytes s.model.shape (a.stateOf s) ++ rest := ⟨_, rfl⟩
  rw [← hbuffer] at hdecode ⊢
  have hrestore := Engine.restore_eq hb ht buffer
  rw [← hmodel, hdecode] at hrestore
  obtain ⟨v, hv, hrestore⟩ := hrestore
  have hzip : (a.stateOf s).keys.zip (a.stateOf s).values =
      s.evaluation.cache.history s.evaluation.tokens.length := Snapshot.zip_history _ _
  have hhistory : s.evaluation.cache.history s.evaluation.tokens.length = v.cache.history v.tokens.length := by
    rw [hv.history_eq, hzip]
  exact ⟨_, _, hrestore, s, _, ha, Engine.session_of_loaded_eq hb rfl rfl, hs, ⟨ht.model, hmodel ▸ hv.sound⟩, hmodel,
    ⟨hv.tokens_eq.symm, hhistory, hv.seen_eq.symm⟩, rfl⟩

/-- **Pausing and resuming is exact.**  An engine in any state can be captured, and another one over the same model,
also in any state, resumed from that: from then on every sequence of commands shows the same with both, step by step.
With nothing evaluated neither is ready to sample. -/
theorem resume_capture (hreachA : Engine.Reachable k a) (hreachB : Engine.Reachable k b) {s t : Session}
    (ha : a.session = some s) (hb : b.session = some t) (hmodel : s.model = t.model) (htokens : c.tokens = a.evaluated)
    (hposition : c.position = a.evaluated.length) (hsampling : c.sampling = d.sampling) :
    ∃ snapshot b' d', Backend.capture a = .ok snapshot ∧ Backend.resume b d snapshot = (.ok (), b', d') ∧
      (∀ commands, trace k a c commands = trace k b' d' commands) ∧
      (a.evaluated = [] → (a.sample c).1 = .error .notReady ∧ (b'.sample d').1 = .error .notReady) := by
  have hs := Engine.sound_of_reachable hreachA s ha
  have ht := Engine.sound_of_reachable hreachB t hb
  obtain ⟨n, b', hrestore, halike⟩ := exists_restore ha hb hs ht hmodel []
  rw [List.append_nil] at hrestore
  have hresume : Backend.resume b d (Snapshot.bytes s.model.shape (a.stateOf s)) =
      (.ok (), b', { d with capacity := Backend.contextLength b' }.adopt (Backend.evaluated b')) := by
    have hrestore' : Backend.restore b (Snapshot.bytes s.model.shape (a.stateOf s)) = (.ok n, b') := hrestore
    rw [Backend.resume, hrestore']
  have hcontext : SameHistory c ({ d with capacity := Backend.contextLength b' }.adopt (Backend.evaluated b')) :=
    ⟨htokens.trans halike.evaluated_eq, hposition.trans (congrArg List.length halike.evaluated_eq), hsampling⟩
  refine ⟨_, b', _, Engine.capture_eq ha hs, hresume, fun commands => trace_alike commands halike hcontext,
    fun hnone => ?_⟩
  have hnotReady : (a.sample c).1 = .error .notReady := by
    have hempty : s.evaluation.tokens = [] := by
      rw [Engine.evaluated_eq ha] at hnone
      exact hnone
    have hhas : s.evaluation.hasLogits = false := by
      rw [hs.evaluation.hasLogits_eq, hempty]
      rfl
    rw [Engine.sample, ha]
    simp only [hhas]
    rfl
  exact ⟨hnotReady, (halike.sample hcontext).1 ▸ hnotReady⟩

/-- An engine that evaluated a token, and another that did not. -/
theorem resume_capture_smallest :
    let a := ((Engine.smallest 1).evaluate .machine (Context.new 2) [.ofIndex 1]).2.1
    a.evaluated = [.ofIndex 1] ∧ ∃ snapshot b' d', Backend.capture a = .ok snapshot ∧
      Backend.resume (Engine.smallest 2) (Context.new 2) snapshot = (.ok (), b', d') ∧
      ∀ commands, trace .machine a ((Context.new 2).adopt a.evaluated) commands = trace .machine b' d' commands := by
  intro a
  obtain ⟨m, v, hsizes, htokens, hload⟩ := load_smallest
  obtain ⟨v', hsession, htokens'⟩ := evaluate_smallest .machine hsizes htokens (hload 1).2
  have hreach : Engine.Reachable .machine a := .evaluate (reachable_smallest .machine 1) _ _
  obtain ⟨snapshot, b', d', hcapture, hresume, htrace, -⟩ := resume_capture hreach (reachable_smallest .machine 2)
    hsession (hload 2).2 rfl (c := (Context.new 2).adopt a.evaluated) (d := Context.new 2) rfl rfl rfl
  exact ⟨(Engine.evaluated_eq hsession).trans htokens', snapshot, b', d', hcapture, hresume, htrace⟩

end CausalLM.Decoder
