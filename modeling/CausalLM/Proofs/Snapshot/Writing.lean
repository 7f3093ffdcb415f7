import CausalLM.Proofs.Cache.Rows
import CausalLM.Proofs.Snapshot.Image
/-!
# Proofs.Snapshot.Writing — a snapshot written field by field

A snapshot goes into a buffer that is there already, one field after the other, and then its digest behind them
(`encodeInPlace?`).  On the way the writer can run out of room, with a failure that leaves part of the fields in the
buffer (`put`), and it reads slices of the cache and copies the digest, which have to lie in their buffers.  If the
state can be saved none of this happens: its fields take up the room that was set aside for them (`Writes`), so what is
written in place is what `encode` says (`encodeInPlace?_eq`).
-/
namespace CausalLM.Snapshot

/-- **A page that is written over**: the bytes written so far and the old ones behind them. -/
structure Page where
  written : Bytes
  old : Bytes
  deriving DecidableEq, Repr

/-- What writes over a page.  It may fail on the way; there is no answer where it asks for what is out of range. -/
abbrev Writer := ExceptT Error (StateT Page Option)

/-- Writes some bytes, as many of them as there is room for. -/
def put (b : Bytes) : Writer Unit := fun p =>
  if b.length ≤ p.old.length then some (.ok (), ⟨p.written ++ b, p.old.drop b.length⟩)
  else some (.error (.io "failed to write whole buffer"), ⟨p.written ++ b.take p.old.length, []⟩)

/-- Reads a slice. -/
def slice (rows? : Option Vec) : Writer Vec := fun p => rows?.map (.ok ·, p)

def putSingles (v : Vec) : Writer Unit := v.forM fun x => put (Bytes.ofNat 4 x.bits.toNat)

/-- The rows of a layer, the keys of all positions and then the values. -/
def putRows (cache : Cache) (n layer : Nat) : Writer Unit := do
  let keys ← slice (cache.keys? layer n)
  putSingles keys
  let values ← slice (cache.values? layer n)
  putSingles values

/-- Everything before the digest, field by field. -/
def putBody (shape : StateShape) (rng : UInt64) (tokens : List Token) (logits : Vec) (cache : Cache) : Writer Unit := do
  put magic
  put (Bytes.ofNat 4 version)
  put (Bytes.ofNat 4 shape.architecture.utf8ByteSize)
  put (Utf8.ofString shape.architecture)
  shape.sizes.forM fun size => put (Bytes.ofNat 4 size.2)
  put (Bytes.ofNat 8 rng.toNat)
  put (Bytes.ofNat 4 tokens.length)
  tokens.forM fun t => put (Bytes.ofInt 4 t.toInt)
  put (Bytes.ofNat 4 logits.length)
  putSingles logits
  (List.range shape.layers).forM fun layer => putRows cache tokens.length layer

/-- The digest of some bytes, copied behind them over a buffer, if it lies in it. -/
def copyDigest? (body : Bytes) (behind : Bytes) : Option Bytes :=
  if StateShape.digestBytes ≤ behind.length then
    some (body ++ Digest.sha256 body ++ behind.drop StateShape.digestBytes)
  else none

/-- **Writes a snapshot in place**: where the checks of `encode` are passed, field by field over the front of the buffer
that the snapshot is to take up, and then the digest of what was written. -/
def encodeInPlace? (shape : StateShape) (rng : UInt64) (tokens : List Token) (logits : Vec) (cache : Cache)
    (buffer : Bytes) : Option (Except Error Nat × Bytes) :=
  let total := shape.encodedBytes tokens.length logits.length
  match encode shape rng tokens logits cache buffer with
  | .error e => some (.error e, buffer)
  | .ok _ => do
    let (result, page) ← putBody shape rng tokens logits cache ⟨[], buffer.take total⟩
    match result with
    | .error e => some (.error e, page.written ++ page.old ++ buffer.drop total)
    | .ok () =>
      let out ← copyDigest? page.written (page.old ++ buffer.drop total)
      some (.ok total, out)

variable {shape : StateShape} {rng : UInt64} {tokens : List Token} {logits : Vec} {cache : Cache}

/-! ## Writers of known bytes -/

/-- **A writer of some bytes**: where the page has room for them, they are what it writes. -/
def Writes (w : Writer Unit) (b : Bytes) : Prop :=
  ∀ written room rest : Bytes, room.length = b.length → w ⟨written, room ++ rest⟩ = some (.ok (), ⟨written ++ b, rest⟩)

theorem writes_put (b : Bytes) : Writes (put b) b := by
  intro written room rest hroom
  have hle : b.length ≤ (room ++ rest).length := by
    rw [List.length_append]
    omega
  rw [put, if_pos hle, ← hroom, List.drop_left]

theorem writes_pure : Writes (pure ()) [] := by
  intro written room rest hroom
  rw [List.length_eq_zero_iff.1 hroom, List.append_nil]
  rfl

/-- **One writer after another** writes the bytes of the one and then those of the other. -/
theorem Writes.bind {w : Writer Unit} {w' : Unit → Writer Unit} {b b' : Bytes} (h : Writes w b)
    (h' : Writes (w' ()) b') : Writes (w >>= w') (b ++ b') := by
  intro written room rest hroom
  rw [List.length_append] at hroom
  have hfirst : (room.take b.length).length = b.length := List.length_take_of_le (by omega)
  have hsecond : (room.drop b.length).length = b'.length := by
    rw [List.length_drop]
    omega
  have hw := h written (room.take b.length) (room.drop b.length ++ rest) hfirst
  rw [← List.append_assoc, List.take_append_drop] at hw
  have hw' := h' (written ++ b) (room.drop b.length) rest hsecond
  rw [List.append_assoc] at hw'
  calc (w >>= w') ⟨written, room ++ rest⟩
      = (w ⟨written, room ++ rest⟩).bind fun r => ExceptT.bindCont w' r.1 r.2 := rfl
    _ = w' () ⟨written ++ b, room.drop b.length ++ rest⟩ := by rw [hw]; rfl
    _ = some (.ok (), ⟨written ++ (b ++ b'), rest⟩) := hw'

/-- A slice that can be read goes to what comes next. -/
theorem writes_slice {rows : Vec} {w : Vec → Writer Unit} {b : Bytes} (h : Writes (w rows) b) :
    Writes (slice (some rows) >>= w) b := h

theorem writes_forM {α : Type} {f : α → Writer Unit} {g : α → Bytes} :
    ∀ {l : List α}, (∀ a ∈ l, Writes (f a) (g a)) → Writes (l.forM f) (l.flatMap g)
  | [], _ => writes_pure
  | a :: l, h => by
    obtain ⟨ha, hl⟩ := List.forall_mem_cons.1 h
    rw [List.flatMap_cons]
    exact ha.bind (writes_forM hl)

theorem writes_putSingles (v : Vec) : Writes (putSingles v) (writeSingles v) := writes_forM fun _ _ => writes_put _

section

variable (hsize : shape.rowWidth * shape.context ≤ Word.max64)

include hsize

/-- The rows of a layer that the cache has are written. -/
theorem writes_putRows (h : cache.Shaped shape.layers shape.rowWidth shape.context) {n layer : Nat}
    (hl : layer < shape.layers) (hn : n ≤ shape.context) :
    Writes (putRows cache n layer) (writeSingles (cache.keys layer n) ++ writeSingles (cache.values layer n)) := by
  rw [putRows, h.keys?_eq hsize hl hn, h.values?_eq hsize hl hn]
  exact writes_slice ((writes_putSingles _).bind (writes_slice (writes_putSingles _)))

/-- **The fields of a snapshot**, one after the other. -/
theorem writes_putBody (h : Savable shape tokens logits cache) (rng : UInt64) :
    Writes (putBody shape rng tokens logits cache) (body shape rng tokens logits cache) := by
  have hrows : Writes ((List.range shape.layers).forM fun layer => putRows cache tokens.length layer) _ :=
    writes_forM fun layer hlayer => writes_putRows hsize h.shaped (List.mem_range.1 hlayer) h.tokens_le
  simp only [body, List.append_assoc]
  exact (writes_put _).bind <| (writes_put _).bind <| (writes_put _).bind <| (writes_put _).bind <|
    (writes_forM fun _ _ => writes_put _).bind <| (writes_put _).bind <| (writes_put _).bind <|
    (writes_forM fun _ _ => writes_put _).bind <| (writes_put _).bind <| (writes_putSingles _).bind hrows

end

/-! ## The whole snapshot -/

theorem length_body (h : Savable shape tokens logits cache) (rng : UInt64) :
    (body shape rng tokens logits cache).length + StateShape.digestBytes =
      shape.encodedBytes tokens.length logits.length := by
  rw [← length_bytes_ofCache h rng, bytes, List.length_append, body_eq_payload h.shaped, length_digest]

/-- **Writing in place does what `encode` says**: it answers the same, leaves the buffer as it was where it fails, and
asks for nothing that is out of range. -/
theorem encodeInPlace?_eq (hsize : shape.rowWidth * shape.context ≤ Word.max64)
    (h : Savable shape tokens logits cache) (rng : UInt64) (buffer : Bytes) :
    encodeInPlace? shape rng tokens logits cache buffer = some (match encode shape rng tokens logits cache buffer with
      | .ok (n, out) => (.ok n, out)
      | .error e => (.error e, buffer)) := by
  have hlength := length_body h rng
  rw [encodeInPlace?]
  cases hencode : encode shape rng tokens logits cache buffer with
  | error e => rfl
  | ok p =>
    obtain ⟨n, out⟩ := p
    have hroom : shape.encodedBytes tokens.length logits.length ≤ buffer.length := le_of_encode hencode
    rw [encode_eq_ok h rng hroom] at hencode
    cases hencode
    generalize shape.encodedBytes tokens.length logits.length = total at hlength hroom ⊢
    -- the page is the room for the fields and then that for the digest
    have hpage := writes_putBody hsize h rng [] (buffer.take (body shape rng tokens logits cache).length)
      ((buffer.take total).drop (body shape rng tokens logits cache).length) (List.length_take_of_le (by omega))
    have hsplit : buffer.take (body shape rng tokens logits cache).length ++
        (buffer.take total).drop (body shape rng tokens logits cache).length = buffer.take total := by
      rw [← List.take_append_drop (body shape rng tokens logits cache).length (buffer.take total), List.take_take,
        Nat.min_eq_left (by omega), List.drop_left' (List.length_take_of_le (by omega))]
    have hdigest : ((buffer.take total).drop (body shape rng tokens logits cache).length).length =
        StateShape.digestBytes := by
      rw [List.length_drop, List.length_take]
      omega
    have hcopy : copyDigest? (body shape rng tokens logits cache)
        ((buffer.take total).drop (body shape rng tokens logits cache).length ++ buffer.drop total) =
          some (bytes shape (ofCache rng tokens logits cache) ++ buffer.drop total) := by
      rw [copyDigest?, if_pos (by rw [List.length_append]; omega), List.drop_left' hdigest, bytes,
        body_eq_payload h.shaped]
    rw [hsplit, List.nil_append] at hpage
    simp only [hpage, Option.bind_eq_bind, Option.bind_some, hcopy]

end CausalLM.Snapshot
