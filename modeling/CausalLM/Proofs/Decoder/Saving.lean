import CausalLM.Proofs.Decoder.Restoration
import CausalLM.Proofs.Snapshot.Writing
/-!
# Proofs.Decoder.Saving — the size of a state and what is saved of it

The size of a state is told from the shape of the model and the number of evaluated tokens (`stateBytes_eq`), and what
is saved is taken from the tokens, the logits and the cache as they are.  In every state that operations lead to the two
agree: exactly the buffers of that size are large enough, so much of them is written over, and others stay as they were
(`save_exact`).
-/
namespace CausalLM

/-- **The size of a state** after so many tokens: there are logits as soon as there is a token. -/
def StateShape.stateBytes (shape : StateShape) (tokens : Nat) : Nat :=
  shape.encodedBytes tokens (if tokens = 0 then 0 else shape.vocab)

theorem StateShape.stateBytes_le (shape : StateShape) {tokens : Nat} (h : tokens ≤ shape.context) :
    shape.stateBytes tokens ≤ shape.encodedBytes shape.context shape.vocab := by
  refine shape.encodedBytes_le h ?_
  split
  · exact Nat.zero_le _
  · exact Nat.le_refl _

namespace Decoder.Engine

variable {k : Kernels} {e : Engine} {s : Session}

/-- **Saves in place**, field by field over the front of a buffer. -/
def saveInPlace? (e : Engine) (buffer : Bytes) : Option (Except Error Nat × Bytes) :=
  match e.session with
  | none => some (.error .notLoaded, buffer)
  | some s =>
    let v := s.evaluation
    Snapshot.encodeInPlace? s.model.shape e.rng.state v.tokens (if v.hasLogits then v.logits else []) v.cache buffer

/-- The failure of a buffer that is too small for a state. -/
def tooSmall (size needed : Nat) : Error :=
  .config ("snapshot buffer holds " ++ toString size ++ " bytes, state needs " ++ toString needed)

/-- **The size is told from the shape and the number of tokens** only. -/
theorem stateBytes_eq (hsession : e.session = some s) (hs : s.Sound) :
    e.stateBytes = s.model.shape.stateBytes s.evaluation.tokens.length := by
  have hlength := (hs.evaluation.savable hs.model).logits_length
  rw [stateBytes_eq_encodedBytes hsession hs, StateShape.stateBytes, hlength]
  simp only [List.length_eq_zero_iff]

theorem saveInPlace?_eq (hsession : e.session = some s) (hs : s.Sound) (buffer : Bytes) :
    e.saveInPlace? buffer = some (match e.save buffer with
      | .ok (n, out) => (.ok n, out)
      | .error err => (.error err, buffer)) := by
  have hsize : s.model.shape.rowWidth * s.model.shape.context ≤ Word.max64 := by
    rw [hs.model.shape]
    exact hs.model.sizes.layer_small
  rw [saveInPlace?, save_eq hsession, hsession]
  exact Snapshot.encodeInPlace?_eq hsize (hs.evaluation.savable hs.model) e.rng.state buffer

/-- **Saving and the size of a state agree.**  The size depends on the shape of the model and the number of tokens only.
Capturing never fails and gives as many bytes.  A buffer that holds as many is written over with them from the front,
and what is behind them stays; any other buffer is refused, and all of it stays.  Written in place, field by field, a
buffer comes out the same: the writer never runs out of room, and nothing it reads or copies is out of range. -/
theorem save_exact (h : Reachable k e) (hsession : e.session = some s) :
    e.stateBytes = s.model.shape.stateBytes s.evaluation.tokens.length ∧
    (s.model.shape.encodedBytes s.model.shape.context s.model.shape.vocab < 2 ^ 64 → e.stateBytes < 2 ^ 64) ∧
    ∃ image, Backend.capture e = .ok image ∧ image.length = e.stateBytes ∧
      ∀ buffer : Bytes,
        (e.stateBytes ≤ buffer.length →
          e.save buffer = .ok (e.stateBytes, image ++ buffer.drop e.stateBytes) ∧
          e.saveInPlace? buffer = some (.ok e.stateBytes, image ++ buffer.drop e.stateBytes)) ∧
        (buffer.length < e.stateBytes →
          e.save buffer = .error (tooSmall buffer.length e.stateBytes) ∧
          e.saveInPlace? buffer = some (.error (tooSmall buffer.length e.stateBytes), buffer)) := by
  have hs := sound_of_reachable h s hsession
  have hsavable := hs.evaluation.savable hs.model
  have hbytes := stateBytes_eq_encodedBytes hsession hs
  have hlength := Snapshot.length_bytes_ofCache hsavable e.rng.state
  refine ⟨stateBytes_eq hsession hs, fun hword => ?_, _, capture_eq hsession hs, hlength.trans hbytes.symm,
    fun buffer => ⟨fun hroom => ?_, fun hshort => ?_⟩⟩
  · rw [stateBytes_eq hsession hs]
    exact Nat.lt_of_le_of_lt (s.model.shape.stateBytes_le hsavable.tokens_le) hword
  · have hsave : e.save buffer =
        .ok (e.stateBytes, Snapshot.bytes s.model.shape (e.stateOf s) ++ buffer.drop e.stateBytes) := by
      rw [save_eq hsession, hbytes]
      exact Snapshot.encode_eq_ok hsavable e.rng.state (hbytes ▸ hroom)
    rw [saveInPlace?_eq hsession hs, hsave, hbytes]
    exact ⟨rfl, rfl⟩
  · have hsave : e.save buffer = .error (tooSmall buffer.length e.stateBytes) := by
      rw [save_eq hsession, hbytes]
      exact if_pos (hbytes ▸ hshort)
    rw [saveInPlace?_eq hsession hs, hsave]
    exact ⟨rfl, rfl⟩

/-- An engine that evaluated a token: 109 bytes are enough for its state, 108 are not. -/
theorem save_exact_smallest :
    let e := ((Engine.smallest 1).evaluate .machine (Context.new 2) [.ofIndex 1]).2.1
    ∃ image, Backend.capture e = .ok image ∧ image.length = 109 ∧
      e.saveInPlace? (List.replicate 110 7) = some (.ok 109, image ++ [7]) ∧
      e.saveInPlace? (List.replicate 108 7) = some (.error (tooSmall 108 109), List.replicate 108 7) := by
  intro e
  obtain ⟨m, v, hsizes, htokens, hload⟩ := load_smallest
  obtain ⟨v', hsession, htokens'⟩ := evaluate_smallest .machine hsizes htokens (hload 1).2
  have hreach : Reachable .machine e := .evaluate (reachable_smallest .machine 1) _ _
  have hmodel : m.Valid := (sound_of_reachable hreach _ hsession).model
  obtain ⟨hsize, -, image, hcapture, hlength, hsave⟩ := save_exact hreach hsession
  have hbytes : e.stateBytes = 109 := by
    rw [hsize, hmodel.shape, hsizes, htokens']
    decide
  rw [hbytes] at hlength hsave
  exact ⟨image, hcapture, hlength, ((hsave _).1 (by decide)).2, ((hsave (List.replicate 108 7)).2 (by decide)).2⟩

end Decoder.Engine
end CausalLM
