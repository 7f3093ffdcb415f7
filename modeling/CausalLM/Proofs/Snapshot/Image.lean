import CausalLM.Proofs.Snapshot.Codec
import CausalLM.Proofs.Text.Characters
/-!
# Proofs.Snapshot.Image — saving and restoring undo each other

`encode` writes the bytes of the state it is given (`encode_eq_ok`), with the rows of its cache; loading the rows of a
state that was read into a cache and writing it again gives the same bytes.  So `decode` accepts exactly what starts
with an image of `encode` (`decode_encode`).
-/
namespace CausalLM.Snapshot

variable {shape : StateShape} {rng : UInt64} {tokens : List Token} {logits : Vec} {cache : Cache}

/-- **The state of an evaluation with its rows in a cache.** -/
def ofCache (rng : UInt64) (tokens : List Token) (logits : Vec) (cache : Cache) : Snapshot where
  rng
  tokens
  logits
  keys := (cache.history tokens.length).map Prod.fst
  values := (cache.history tokens.length).map Prod.snd

/-- **What can be saved**: an evaluation of known tokens within the context, logits exactly if there are tokens, and a
cache of the shape that counts as many positions. -/
structure Savable (shape : StateShape) (tokens : List Token) (logits : Vec) (cache : Cache) : Prop where
  tokens_le : tokens.length ≤ shape.context
  tokens_below : ∀ t ∈ tokens, t.isBelow shape.vocab = true
  logits_length : logits.length = if tokens = [] then 0 else shape.vocab
  shaped : cache.Shaped shape.layers shape.rowWidth shape.context
  length_eq : cache.length = tokens.length

/-- **An image of the encoder**: the bytes written for something that can be saved. -/
def Image (shape : StateShape) (image : Bytes) : Prop :=
  ∃ rng tokens logits cache buffer n out, Savable shape tokens logits cache ∧
    encode shape rng tokens logits cache buffer = .ok (n, out) ∧ image = out.take n

theorem zip_history (cache : Cache) (n : Nat) :
    ((cache.history n).map Prod.fst).zip ((cache.history n).map Prod.snd) = cache.history n := by
  rw [← List.unzip_fst, ← List.unzip_snd, List.zip_unzip]

theorem length_history (h : cache.Shaped shape.layers shape.rowWidth shape.context) (n : Nat) :
    (cache.history n).length = shape.layers := by
  rw [Cache.history, Cache.length_rowsFrom, h.layerCount_eq]

theorem length_of_mem_history (h : cache.Shaped shape.layers shape.rowWidth shape.context) {n : Nat}
    (hn : n ≤ shape.context) {p : Vec × Vec} (hp : p ∈ cache.history n) :
    p.1.length = n * shape.rowWidth ∧ p.2.length = n * shape.rowWidth := by
  obtain ⟨layer, hlayer, rfl⟩ := List.mem_map.1 hp
  have hlt : layer < shape.layers := by
    rw [← h.layerCount_eq, ← Nat.zero_add cache.layerCount]
    exact (List.mem_range'_1.1 hlayer).2
  exact ⟨h.length_keys hlt hn, h.length_values hlt hn⟩

theorem Savable.valid (h : Savable shape tokens logits cache) (rng : UInt64) :
    Valid shape (ofCache rng tokens logits cache) where
  tokens_le := h.tokens_le
  tokens_below := h.tokens_below
  logits_length := h.logits_length
  keys_length := by rw [ofCache, List.length_map, length_history h.shaped]
  values_length := by rw [ofCache, List.length_map, length_history h.shaped]
  rows_length p hp := by
    rw [ofCache, zip_history] at hp
    exact length_of_mem_history h.shaped h.tokens_le hp

theorem body_eq_payload (h : cache.Shaped shape.layers shape.rowWidth shape.context) :
    body shape rng tokens logits cache = payload shape (ofCache rng tokens logits cache) := by
  have hrows : writeRows ((ofCache rng tokens logits cache).keys.zip (ofCache rng tokens logits cache).values) =
      (List.range shape.layers).flatMap fun layer =>
        writeSingles (cache.keys layer tokens.length) ++ writeSingles (cache.values layer tokens.length) := by
    rw [ofCache, zip_history, writeRows, Cache.history, Cache.rowsFrom, List.flatMap_map, h.layerCount_eq,
      List.range_eq_range']
  rw [payload, hrows]
  rfl

/-- **Writing gives the bytes of the state**, in front of what the buffer held behind them. -/
theorem encode_eq_ok (h : Savable shape tokens logits cache) (rng : UInt64) {buffer : Bytes}
    (hroom : shape.encodedBytes tokens.length logits.length ≤ buffer.length) :
    encode shape rng tokens logits cache buffer =
      .ok (shape.encodedBytes tokens.length logits.length, bytes shape (ofCache rng tokens logits cache) ++
        buffer.drop (shape.encodedBytes tokens.length logits.length)) := by
  rw [encode]
  simp only
  rw [if_neg (Nat.not_lt.2 hroom), if_neg (fun hne => hne h.length_eq), body_eq_payload h.shaped]
  rfl

theorem length_bytes_ofCache (h : Savable shape tokens logits cache) (rng : UInt64) :
    (bytes shape (ofCache rng tokens logits cache)).length = shape.encodedBytes tokens.length logits.length :=
  (h.valid rng).length_bytes

theorem le_of_encode {buffer out : Bytes} {n : Nat} (h : encode shape rng tokens logits cache buffer = .ok (n, out)) :
    shape.encodedBytes tokens.length logits.length ≤ buffer.length := by
  rw [encode] at h
  simp only at h
  split at h
  · cases h
  · exact Nat.not_lt.1 ‹_›

/-- Writing succeeds only if there is room for the bytes, and then they are the front of the buffer. -/
theorem take_of_encode (h : Savable shape tokens logits cache) {buffer out : Bytes} {n : Nat}
    (hencode : encode shape rng tokens logits cache buffer = .ok (n, out)) :
    n = shape.encodedBytes tokens.length logits.length ∧ out.take n = bytes shape (ofCache rng tokens logits cache) := by
  rw [encode_eq_ok h rng (le_of_encode hencode)] at hencode
  cases hencode
  exact ⟨rfl, List.take_left' (length_bytes_ofCache h rng)⟩

/-- **A state that was read can be loaded into any cache of the shape**, and is then the state of that cache. -/
theorem exists_load {s : Snapshot} (h : Valid shape s) (hshaped : cache.Shaped shape.layers shape.rowWidth shape.context) :
    ∃ cache', Decoder.Evaluation.loadRows 0 (s.keys.zip s.values) cache = (.ok (), cache') ∧
      Savable shape s.tokens s.logits (cache'.commit s.tokens.length) ∧
      ofCache s.rng s.tokens s.logits (cache'.commit s.tokens.length) = s := by
  have hlen : (s.keys.zip s.values).length = shape.layers := by
    rw [List.length_zip, h.keys_length, h.values_length, Nat.min_self]
  obtain ⟨cache', hload, hshaped', hhistory⟩ := Cache.history_loadRows hshaped h.tokens_le hlen h.rows_length
  have hkeys : (s.keys.zip s.values).map Prod.fst = s.keys :=
    List.map_fst_zip (Nat.le_of_eq (h.keys_length.trans h.values_length.symm))
  have hvalues : (s.keys.zip s.values).map Prod.snd = s.values :=
    List.map_snd_zip (Nat.le_of_eq (h.values_length.trans h.keys_length.symm))
  have hcommit : (cache'.commit s.tokens.length).history s.tokens.length = s.keys.zip s.values := hhistory
  refine ⟨cache', hload, ⟨h.tokens_le, h.tokens_below, h.logits_length, hshaped'.commit _, ?_⟩, ?_⟩
  · rw [Cache.commit, hshaped'.capacity_eq]
    exact Nat.min_eq_left h.tokens_le
  · rw [ofCache, hcommit, hkeys, hvalues]

theorem exists_cache (shape : StateShape) :
    ∃ cache : Cache, cache.Shaped shape.layers shape.rowWidth shape.context := by
  have huniform : Cache.Uniform shape.layers (shape.rowWidth * shape.context)
      (List.replicate shape.layers (List.replicate (shape.rowWidth * shape.context) .zero)) := by
    refine ⟨List.length_replicate, fun b hb => ?_⟩
    rw [List.eq_of_mem_replicate hb, List.length_replicate]
  exact ⟨⟨shape.layers, shape.rowWidth, shape.context, _, _, 0⟩, rfl, rfl, rfl, huniform, huniform⟩

theorem Valid.image {s : Snapshot} (h : Valid shape s) : Image shape (bytes shape s) := by
  obtain ⟨cache, hshaped⟩ := exists_cache shape
  obtain ⟨cache', -, hsavable, hof⟩ := exists_load h hshaped
  have hencode := encode_eq_ok hsavable s.rng (Nat.le_of_eq h.length_bytes.symm)
  refine ⟨s.rng, s.tokens, s.logits, _, _, _, _, hsavable, hencode, ?_⟩
  rw [(take_of_encode hsavable hencode).2, hof]

/-- **Reading accepts exactly what writing produces.**  Everything that can be saved is read back bit for bit, with
anything behind it; what is read, loaded into a cache and written again gives the same bytes; and a proper front of an
image, or a buffer that no image stands in front of, is a corrupt state. -/
theorem decode_encode (hfits : shape.Fits) (hmemory : shape.Allocates) :
    (∀ rng tokens logits cache buffer, Savable shape tokens logits cache →
      shape.encodedBytes tokens.length logits.length ≤ buffer.length →
      ∃ n out, encode shape rng tokens logits cache buffer = .ok (n, out) ∧
        n = shape.encodedBytes tokens.length logits.length ∧
        ∀ rest, decode shape (out.take n ++ rest) = .ok (ofCache rng tokens logits cache, n)) ∧
    (∀ buffer s n, decode shape buffer = .ok (s, n) →
      ∀ cache, cache.Shaped shape.layers shape.rowWidth shape.context →
      ∃ loaded, Decoder.Evaluation.loadRows 0 (s.keys.zip s.values) cache = (.ok (), loaded) ∧
        ∀ target : Bytes, n ≤ target.length → ∃ out,
          encode shape s.rng s.tokens s.logits (loaded.commit s.tokens.length) target = .ok (n, out) ∧
          out.take n = buffer.take n) ∧
    (∀ image, Image shape image → ∀ n < image.length, ∃ why,
      decode shape (image.take n) = .error (.corruptState why)) ∧
    (∀ buffer, (∀ image, Image shape image → ¬image <+: buffer) → ∃ why,
      decode shape buffer = .error (.corruptState why)) := by
  refine ⟨fun rng tokens logits cache buffer hsavable hroom => ?_, fun buffer s n hdecode cache hshaped => ?_,
    fun image himage n hn => ?_, fun buffer hnone => ?_⟩
  · have hencode := encode_eq_ok hsavable rng hroom
    refine ⟨_, _, hencode, rfl, fun rest => ?_⟩
    rw [(take_of_encode hsavable hencode).2, decode_bytes hfits hmemory (hsavable.valid rng) rest,
      length_bytes_ofCache hsavable]
  · obtain ⟨-, hvalid, rfl, rest, rfl⟩ := of_decode hdecode
    obtain ⟨loaded, hload, hsavable, hof⟩ := exists_load hvalid hshaped
    refine ⟨loaded, hload, fun target htarget => ?_⟩
    rw [hvalid.length_bytes] at htarget
    have hencode := encode_eq_ok hsavable s.rng htarget
    rw [← hvalid.length_bytes] at hencode
    exact ⟨_, hencode, by rw [(take_of_encode hsavable hencode).2, hof, List.take_left]⟩
  · obtain ⟨rng, tokens, logits, cache, buffer, m, out, hsavable, hencode, rfl⟩ := himage
    rw [(take_of_encode hsavable hencode).2] at hn ⊢
    cases hdecode : decode shape ((bytes shape (ofCache rng tokens logits cache)).take n) with
    | error e =>
      obtain ⟨why, rfl⟩ := corrupts_decode hmemory _ e hdecode
      exact ⟨why, rfl⟩
    | ok p => exact absurd hdecode (not_decode_take hmemory hfits (hsavable.valid rng) hn)
  · cases hdecode : decode shape buffer with
    | error e =>
      obtain ⟨why, rfl⟩ := corrupts_decode hmemory buffer e hdecode
      exact ⟨why, rfl⟩
    | ok p =>
      obtain ⟨s, n⟩ := p
      obtain ⟨-, hvalid, -, rest, rfl⟩ := of_decode hdecode
      exact absurd (List.prefix_append _ _) (hnone _ hvalid.image)

/-- The shape of a model of one layer with two tokens. -/
def smallShape : StateShape := ⟨"starcoder", 1, 2, 1, 1, 2⟩

/-- A cache of that shape that counts one position. -/
def smallCache : Cache := ⟨1, 1, 2, [[.one, .two]], [[.half, .zero]], 1⟩

theorem savable_small : Savable smallShape [.ofIndex 1] [.zero, .one] smallCache where
  tokens_le := by decide
  tokens_below := by decide
  logits_length := by decide
  shaped := ⟨rfl, rfl, rfl, ⟨rfl, by decide⟩, ⟨rfl, by decide⟩⟩
  length_eq := rfl

theorem decode_encode_small : ∃ n out,
    encode smallShape 7 [.ofIndex 1] [.zero, .one] smallCache (List.replicate 200 0) = .ok (n, out) ∧
      decode smallShape (out.take n ++ [1, 2, 3]) =
        .ok (⟨7, [.ofIndex 1], [.zero, .one], [[.one]], [[.half]]⟩, n) := by
  have hfits : smallShape.Fits := ⟨by decide, by decide⟩
  have hmemory : smallShape.Allocates := fun _ => by decide
  have hroom : smallShape.encodedBytes 1 2 ≤ (List.replicate 200 (0 : UInt8)).length := by
    rw [List.length_replicate]
    decide
  obtain ⟨n, out, hencode, -, hdecode⟩ := (decode_encode hfits hmemory).1 7 _ _ _ _ savable_small hroom
  exact ⟨n, out, hencode, hdecode [1, 2, 3]⟩

/-- **Nothing is accepted for a name whose length is no word of 32 bits.** -/
theorem decode_of_longName (hlong : 2 ^ 32 ≤ shape.architecture.utf8ByteSize) (hmemory : shape.Allocates)
    (buffer : Bytes) : ∃ why, decode shape buffer = .error (.corruptState why) := by
  cases hdecode : decode shape buffer with
  | error e =>
    obtain ⟨why, rfl⟩ := corrupts_decode hmemory buffer e hdecode
    exact ⟨why, rfl⟩
  | ok p => exact absurd (of_decode hdecode).1.architecture (Nat.not_lt.2 hlong)

/-- The same shape for a model with a name of so many letters. -/
def named (n : Nat) : StateShape := { smallShape with architecture := String.ofList (List.replicate n 'a') }

theorem utf8ByteSize_named (n : Nat) : (named n).architecture.utf8ByteSize = n := by
  have hletter : (String.utf8EncodeChar 'a').length = 1 := rfl
  rw [← Utf8.length_ofString, Utf8.ofString_eq_encode, named, String.toList_ofList, Utf8.encode, List.length_flatMap,
    List.map_replicate, hletter, List.sum_replicate_nat, Nat.mul_one]

/-- **A name whose length is no word of 32 bits** is written with another length, and what was written is refused. -/
theorem decode_encode_longName :
    (∀ size ∈ (named (2 ^ 32)).sizes, size.2 < 2 ^ 32) ∧ 0 < (named (2 ^ 32)).vocab ∧
    (named (2 ^ 32)).encodedBytes (named (2 ^ 32)).context (named (2 ^ 32)).vocab < 2 ^ 64 ∧
    (named (2 ^ 32)).Allocates ∧ Savable (named (2 ^ 32)) [.ofIndex 1] [.zero, .one] smallCache ∧
    ∃ n out why, encode (named (2 ^ 32)) 7 [.ofIndex 1] [.zero, .one] smallCache
      (List.replicate ((named (2 ^ 32)).encodedBytes 1 2) 0) = .ok (n, out) ∧
      decode (named (2 ^ 32)) (out.take n) = .error (.corruptState why) := by
  have hmemory : (named (2 ^ 32)).Allocates := fun _ => by decide
  have hsavable : Savable (named (2 ^ 32)) [.ofIndex 1] [.zero, .one] smallCache :=
    ⟨savable_small.tokens_le, savable_small.tokens_below, savable_small.logits_length, savable_small.shaped,
      savable_small.length_eq⟩
  have hroom : (named (2 ^ 32)).encodedBytes 1 2 ≤
      (List.replicate ((named (2 ^ 32)).encodedBytes 1 2) (0 : UInt8)).length := Nat.le_of_eq List.length_replicate.symm
  obtain ⟨why, hdecode⟩ := decode_of_longName (Nat.le_of_eq (utf8ByteSize_named _).symm) hmemory _
  refine ⟨by decide, by decide, ?_, hmemory, hsavable, _, _, why, encode_eq_ok hsavable 7 hroom, hdecode⟩
  rw [StateShape.encodedBytes, StateShape.headBytes, utf8ByteSize_named]
  decide

end CausalLM.Snapshot
