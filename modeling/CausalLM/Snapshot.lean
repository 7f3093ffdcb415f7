import CausalLM.Cache
import CausalLM.Digest
import CausalLM.Hyperparameters
import CausalLM.Text.Utf8
import CausalLM.Token
/-!
# Snapshot — the state of an evaluation in bytes

A snapshot is everything that decides what happens next: the generator's word, the evaluated tokens, the logits of the
last of them, and the cache rows of all of them.  It starts with the shape of the model it belongs to and ends with a
digest of all before it:

| field   | bytes                                                            |
|---------|------------------------------------------------------------------|
| magic   | `LMST`                                                           |
| version | word of 32 bits                                                  |
| model   | architecture (length and bytes), layers, context, width, row width, vocabulary |
| rng     | word of 64 bits                                                  |
| tokens  | count and signed words of 32 bits                                |
| logits  | count, zero or the vocabulary, and binary32 numbers              |
| rows    | per layer the keys of all positions, then the values             |
| digest  | SHA-256                                                          |

Reading refuses whatever writing could not have produced for the same shape.
-/
namespace CausalLM

/-- **The shape a snapshot has to agree with.** -/
structure StateShape where
  architecture : String
  layers : Nat
  context : Nat
  width : Nat
  rowWidth : Nat
  vocab : Nat
  deriving DecidableEq, Repr

/-- **The state of an evaluation.**  There are logits exactly when there are tokens. -/
structure Snapshot where
  rng : UInt64
  tokens : List Token
  logits : Vec
  /-- Per layer the key rows of all positions. -/
  keys : List Vec
  /-- Per layer the value rows of all positions. -/
  values : List Vec
  deriving DecidableEq, Repr

namespace StateShape

def ofHyperparameters (h : Hyperparameters) : StateShape where
  architecture := h.architecture
  layers := h.layers
  context := h.context
  width := h.width
  rowWidth := h.rowWidth
  vocab := h.vocab

/-- The sizes by name, in the order they are written. -/
def sizes (s : StateShape) : List (String × Nat) :=
  [("n_layer", s.layers), ("n_ctx", s.context), ("n_embd", s.width), ("kv_dim", s.rowWidth), ("n_vocab", s.vocab)]

def headBytes (s : StateShape) : Nat := 4 + 4 + 4 + s.architecture.utf8ByteSize + 5 * 4 + 8 + 4

def digestBytes : Nat := 32

/-- **The exact size of a snapshot** of so many tokens and logits. -/
def encodedBytes (s : StateShape) (tokens logits : Nat) : Nat :=
  s.headBytes + tokens * 4 + 4 + logits * 4 + s.layers * 2 * tokens * s.rowWidth * 4 + digestBytes

end StateShape

namespace Snapshot

def magic : Bytes := [0x4c, 0x4d, 0x53, 0x54]

def version : Nat := 1

/-! ## Writing -/

def writeSingles (v : Vec) : Bytes := v.flatMap fun x => Bytes.ofNat 4 x.bits.toNat

/-- Everything before the digest, with the rows taken from a cache. -/
def body (shape : StateShape) (rng : UInt64) (tokens : List Token) (logits : Vec) (cache : Cache) : Bytes :=
  magic ++ Bytes.ofNat 4 version ++
    Bytes.ofNat 4 shape.architecture.utf8ByteSize ++ Utf8.ofString shape.architecture ++
    shape.sizes.flatMap (fun size => Bytes.ofNat 4 size.2) ++
    Bytes.ofNat 8 rng.toNat ++
    Bytes.ofNat 4 tokens.length ++ tokens.flatMap (fun t => Bytes.ofInt 4 t.toInt) ++
    Bytes.ofNat 4 logits.length ++ writeSingles logits ++
    (List.range shape.layers).flatMap fun layer =>
      writeSingles (cache.keys layer tokens.length) ++ writeSingles (cache.values layer tokens.length)

/-- **Writes a snapshot** over the front of a buffer, and says how many bytes it took. -/
def encode (shape : StateShape) (rng : UInt64) (tokens : List Token) (logits : Vec) (cache : Cache)
    (buffer : Bytes) : Except Error (Nat × Bytes) :=
  let total := shape.encodedBytes tokens.length logits.length
  if buffer.length < total then
    .error (.config ("snapshot buffer holds " ++ toString buffer.length ++ " bytes, state needs " ++ toString total))
  else if cache.length ≠ tokens.length then
    .error (.corruptState ("cache holds " ++ toString cache.length ++ " positions but history has " ++
      toString tokens.length))
  else
    let body := body shape rng tokens logits cache
    .ok (total, body ++ Digest.sha256 body ++ buffer.drop total)

/-! ## Reading -/

/-- The failure of a snapshot that stops too early. -/
def truncated : Error := .corruptState "truncated snapshot: failed to fill whole buffer"

/-- The first `n` bytes and the rest. -/
def readBytes (n : Nat) (s : Bytes) : Except Error (Bytes × Bytes) :=
  match Bytes.split? n s with
  | some p => .ok p
  | none => .error truncated

def readWord (width : Nat) (s : Bytes) : Except Error (Nat × Bytes) := do
  let (b, s) ← readBytes width s
  return (b.toNat, s)

def readTokens : Nat → Bytes → Except Error (List Token × Bytes)
  | 0, s => .ok ([], s)
  | n + 1, s => do
    let (b, s) ← readBytes 4 s
    let (ts, s) ← readTokens n s
    return (Token.ofInt b.toInt :: ts, s)

def singlesOf : Nat → Bytes → Vec
  | 0, _ => []
  | n + 1, b => ⟨UInt32.ofNat (Bytes.toNat (b.take 4))⟩ :: singlesOf n (b.drop 4)

/-- So many numbers, into a buffer that has to be had first. -/
def readSingles (n : Nat) (s : Bytes) : Except Error (Vec × Bytes) := do
  let _ ← Memory.zeros n
  let (b, s) ← readBytes (n * 4) s
  return (singlesOf n b, s)

/-- The key and value rows of so many layers, `n` numbers each. -/
def readRows (n : Nat) : Nat → Bytes → Except Error ((List Vec × List Vec) × Bytes)
  | 0, s => .ok (([], []), s)
  | layers + 1, s => do
    let (k, s) ← readSingles n s
    let (v, s) ← readSingles n s
    let ((ks, vs), s) ← readRows n layers s
    return ((k :: ks, v :: vs), s)

/-- Checks the sizes of the model one after the other. -/
def checkSizes : List (String × Nat) → Bytes → Except Error Bytes
  | [], s => .ok s
  | (name, want) :: rest, s => do
    let (got, s) ← readWord 4 s
    if got ≠ want then
      throw (.corruptState (name ++ " is " ++ toString got ++ " in snapshot, " ++ toString want ++ " in model"))
    checkSizes rest s

/-- Magic, version and model; what is left comes after them. -/
def checkHead (shape : StateShape) (s : Bytes) : Except Error Bytes := do
  let (letters, s) ← readBytes 4 s
  if letters ≠ magic then throw (.corruptState "bad magic")
  let (v, s) ← readWord 4 s
  if v ≠ version then throw (.corruptState ("unsupported snapshot version " ++ toString v))
  let (n, s) ← readWord 4 s
  if n ≠ shape.architecture.utf8ByteSize then throw (.corruptState "architecture mismatch")
  let (name, s) ← readBytes n s
  if name ≠ Utf8.ofString shape.architecture then
    throw (.corruptState ("snapshot for '" ++ Utf8.toStringLossy name ++ "', backend is '" ++
      shape.architecture ++ "'"))
  checkSizes shape.sizes s

/-- The number of logits, which stands behind the tokens. -/
def peekLogits (shape : StateShape) (tokens : Nat) (buffer : Bytes) : Except Error Nat :=
  match Bytes.split? 4 (buffer.drop (shape.headBytes + tokens * 4)) with
  | some (b, _) => .ok b.toNat
  | none => .error (.corruptState "truncated before logits")

/-- **Reads a snapshot for a shape**, and says how many bytes it took.  Sizes and digest are checked before any bulk
data is read. -/
def decode (shape : StateShape) (buffer : Bytes) : Except Error (Snapshot × Nat) := do
  let s ← checkHead shape buffer
  let (rng, s) ← readWord 8 s
  let (count, s) ← readWord 4 s
  if shape.context < count then
    throw (.corruptState ("position " ++ toString count ++ " beyond context " ++ toString shape.context))
  let logitCount ← peekLogits shape count buffer
  if logitCount ≠ 0 ∧ logitCount ≠ shape.vocab then
    throw (.corruptState (toString logitCount ++ " logits for vocabulary of " ++ toString shape.vocab))
  if (count == 0) ≠ (logitCount == 0) then
    throw (.corruptState "logits present without evaluated tokens")
  let total := shape.encodedBytes count logitCount
  if buffer.length < total then
    throw (.corruptState ("snapshot is " ++ toString buffer.length ++ " bytes, expected " ++ toString total))
  let bodyBytes := total - StateShape.digestBytes
  if Digest.sha256 (buffer.take bodyBytes) ≠ (buffer.drop bodyBytes).take StateShape.digestBytes then
    throw (.corruptState "digest mismatch")
  let (tokens, s) ← readTokens count s
  match tokens.find? (fun t => !t.isBelow shape.vocab) with
  | some bad => throw (.corruptState ("token " ++ bad.text ++ " outside vocabulary"))
  | none =>
    let (_, s) ← readWord 4 s
    let (logits, s) ← readSingles logitCount s
    let ((keys, values), _) ← readRows (count * shape.rowWidth) shape.layers s
    return ({ rng := UInt64.ofNat rng, tokens, logits, keys, values }, total)

end Snapshot
end CausalLM
