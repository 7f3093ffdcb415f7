import CausalLM.Proofs.Cache
import CausalLM.Proofs.Snapshot.Fields
import CausalLM.Proofs.Text.Utf8
/-!
# Proofs.Snapshot.Codec — reading accepts exactly what writing produces

`bytes` are the bytes of a state of an evaluation.  `decode_bytes` and `of_decode` say that `decode` accepts the bytes
of the valid states, with anything behind them, and nothing else; so no proper front of them is accepted.
`encode_eq_ok` says that writing from a cache produces the bytes of its history.
-/
namespace CausalLM

/-- **The shape can be written**: what the head of a snapshot keeps in words of 32 bits fits in them. -/
structure StateShape.Fits (shape : StateShape) : Prop where
  architecture : shape.architecture.utf8ByteSize < 2 ^ 32
  sizes : ∀ size ∈ shape.sizes, size.2 < 2 ^ 32

/-- The rows of one layer can be had; reading asks for no larger buffer. -/
def StateShape.Allocates (shape : StateShape) : Prop :=
  0 < shape.layers → Memory.fits (shape.context * shape.rowWidth) = true

theorem StateShape.Fits.vocab {shape : StateShape} (h : shape.Fits) : shape.vocab < 2 ^ 32 :=
  h.sizes ("n_vocab", shape.vocab) (by simp [StateShape.sizes])

theorem Memory.fits_of_le {m n : Nat} (h : Memory.fits n = true) (hle : m ≤ n) : Memory.fits m = true := by
  rw [Memory.fits, decide_eq_true_eq] at h ⊢
  exact Nat.lt_of_le_of_lt (Nat.mul_le_mul_right _ hle) h

theorem StateShape.Fits.fits_vocab {shape : StateShape} (h : shape.Fits) : Memory.fits shape.vocab = true :=
  Memory.fits_of_le (by decide) (Nat.le_of_lt h.vocab)

theorem StateShape.Allocates.fits {shape : StateShape} (h : shape.Allocates) {n : Nat} (hn : n ≤ shape.context)
    (hl : 0 < shape.layers) : Memory.fits (n * shape.rowWidth) = true :=
  Memory.fits_of_le (h hl) (Nat.mul_le_mul_right _ hn)

namespace Snapshot

variable {shape : StateShape} {s : Snapshot} {r : Bytes}

/-! ## The head -/

/-- The bytes of some sizes. -/
def writeSizes (sizes : List (String × Nat)) : Bytes := sizes.flatMap fun size => Bytes.ofNat 4 size.2

/-- Magic, version and model. -/
def head (shape : StateShape) : Bytes :=
  magic ++ Bytes.ofNat 4 version ++ Bytes.ofNat 4 shape.architecture.utf8ByteSize ++
    Utf8.ofString shape.architecture ++ writeSizes shape.sizes

theorem length_head (shape : StateShape) : (head shape).length + 12 = shape.headBytes := by
  simp only [head, List.length_append, Bytes.length_ofNat, Utf8.length_ofString, writeSizes, StateShape.sizes,
    List.flatMap_cons, List.flatMap_nil, StateShape.headBytes, magic, List.length_cons, List.length_nil]

theorem checkSizes_eq_ok_iff : ∀ {sizes : List (String × Nat)} {s r : Bytes},
    checkSizes sizes s = .ok r ↔ s = writeSizes sizes ++ r ∧ ∀ size ∈ sizes, size.2 < 2 ^ 32
  | [], s, r => by
    rw [checkSizes, Except.ok.injEq]
    exact ⟨fun h => ⟨h, fun _ hs => by cases hs⟩, fun h => h.1⟩
  | (name, want) :: rest, s, r => by
    simp only [checkSizes, ↓throw_bind, bind_eq_ok_iff, guard_eq_ok_iff]
    constructor
    · rintro ⟨⟨got, s'⟩, hread, hgot, hrest⟩
      obtain ⟨rfl, hlt⟩ := readWord_eq_ok_iff.1 hread
      obtain ⟨rfl, hall⟩ := checkSizes_eq_ok_iff.1 hrest
      have heq : got = want := Decidable.not_not.1 hgot
      rw [heq] at hlt ⊢
      exact ⟨by rw [← List.append_assoc]; rfl, List.forall_mem_cons.2 ⟨hlt, hall⟩⟩
    · rintro ⟨rfl, hall⟩
      obtain ⟨hlt, hall'⟩ := List.forall_mem_cons.1 hall
      refine ⟨(want, writeSizes rest ++ r), readWord_eq_ok_iff.2 ⟨?_, hlt⟩, fun h => h rfl,
        checkSizes_eq_ok_iff.2 ⟨rfl, hall'⟩⟩
      rw [writeSizes, List.flatMap_cons, List.append_assoc]
      rfl

theorem corrupts_checkSizes : ∀ (sizes : List (String × Nat)) (s : Bytes), Corrupts (checkSizes sizes s)
  | [], _ => .ok _
  | (name, want) :: rest, s => by
    simp only [checkSizes, ↓throw_bind]
    exact (corrupts_readWord 4 s).bind fun _ _ => .guard fun _ => corrupts_checkSizes rest _

theorem checkHead_eq_ok_iff {s : Bytes} : checkHead shape s = .ok r ↔ s = head shape ++ r ∧ shape.Fits := by
  simp only [checkHead, ↓throw_bind, bind_eq_ok_iff, guard_eq_ok_iff]
  constructor
  · rintro ⟨⟨letters, s₁⟩, hread, hletters, ⟨v, s₂⟩, hversion, hv, ⟨n, s₃⟩, hsize, hn, ⟨name, s₄⟩, hbytes, hname,
      hsizes⟩
    obtain ⟨rfl, -⟩ := readBytes_eq_ok_iff.1 hread
    obtain ⟨rfl, -⟩ := readWord_eq_ok_iff.1 hversion
    obtain ⟨rfl, hlt⟩ := readWord_eq_ok_iff.1 hsize
    obtain ⟨rfl, -⟩ := readBytes_eq_ok_iff.1 hbytes
    obtain ⟨rfl, hall⟩ := checkSizes_eq_ok_iff.1 hsizes
    have hletters' : letters = magic := Decidable.not_not.1 hletters
    have hv' : v = version := Decidable.not_not.1 hv
    have hn' : n = shape.architecture.utf8ByteSize := Decidable.not_not.1 hn
    have hname' : name = Utf8.ofString shape.architecture := Decidable.not_not.1 hname
    refine ⟨?_, hn' ▸ hlt, hall⟩
    simp only [head, hletters', hv', hn', hname', List.append_assoc]
  · rintro ⟨rfl, harch, hall⟩
    simp only [head, List.append_assoc]
    exact ⟨(magic, _), readBytes_eq_ok_iff.2 ⟨rfl, rfl⟩, fun h => h rfl,
      (version, _), readWord_eq_ok_iff.2 ⟨rfl, by decide⟩, fun h => h rfl,
      (_, _), readWord_eq_ok_iff.2 ⟨rfl, harch⟩, fun h => h rfl,
      (_, _), readBytes_eq_ok_iff.2 ⟨rfl, Utf8.length_ofString _⟩, fun h => h rfl, checkSizes_eq_ok_iff.2 ⟨rfl, hall⟩⟩

theorem corrupts_checkHead (shape : StateShape) (s : Bytes) : Corrupts (checkHead shape s) := by
  simp only [checkHead, ↓throw_bind]
  exact (corrupts_readBytes 4 s).bind fun _ _ => .guard fun _ =>
    (corrupts_readWord 4 _).bind fun _ _ => .guard fun _ =>
    (corrupts_readWord 4 _).bind fun _ _ => .guard fun _ =>
    (corrupts_readBytes _ _).bind fun _ _ => .guard fun _ => corrupts_checkSizes _ _

/-! ## The bytes of a state -/

/-- Everything before the digest. -/
def payload (shape : StateShape) (s : Snapshot) : Bytes :=
  head shape ++ Bytes.ofNat 8 s.rng.toNat ++ Bytes.ofNat 4 s.tokens.length ++ writeTokens s.tokens ++
    Bytes.ofNat 4 s.logits.length ++ writeSingles s.logits ++ writeRows (s.keys.zip s.values)

/-- **The bytes of a state.** -/
def bytes (shape : StateShape) (s : Snapshot) : Bytes := payload shape s ++ Digest.sha256 (payload shape s)

/-- **A state a model of the shape can be in.** -/
structure Valid (shape : StateShape) (s : Snapshot) : Prop where
  tokens_le : s.tokens.length ≤ shape.context
  tokens_below : ∀ t ∈ s.tokens, t.isBelow shape.vocab = true
  logits_length : s.logits.length = if s.tokens = [] then 0 else shape.vocab
  keys_length : s.keys.length = shape.layers
  values_length : s.values.length = shape.layers
  rows_length : ∀ p ∈ s.keys.zip s.values,
    p.1.length = s.tokens.length * shape.rowWidth ∧ p.2.length = s.tokens.length * shape.rowWidth

theorem length_digest (b : Bytes) : (Digest.sha256 b).length = StateShape.digestBytes := Digest.length_sha256 b

theorem Valid.length_payload (h : Valid shape s) :
    (payload shape s).length + StateShape.digestBytes = shape.encodedBytes s.tokens.length s.logits.length := by
  have hhead := length_head shape
  have hrows := length_writeRows h.rows_length
  rw [List.length_zip, h.keys_length, h.values_length, Nat.min_self, ← Nat.mul_assoc] at hrows
  simp only [payload, List.length_append, Bytes.length_ofNat, length_writeTokens, length_writeSingles, hrows,
    StateShape.encodedBytes]
  omega

theorem Valid.length_bytes (h : Valid shape s) :
    (bytes shape s).length = shape.encodedBytes s.tokens.length s.logits.length := by
  rw [← h.length_payload, bytes, List.length_append, length_digest]

theorem vocab_pos {t : Token} (h : t.isBelow shape.vocab = true) : 0 < shape.vocab := by
  obtain ⟨i, -, hi⟩ := Token.isBelow_iff.1 h
  omega

theorem Valid.logits_eq_zero_or (h : Valid shape s) : ¬(s.logits.length ≠ 0 ∧ s.logits.length ≠ shape.vocab) := by
  have hlen := h.logits_length
  split at hlen <;> omega

theorem Valid.tokens_iff_logits (h : Valid shape s) : (s.tokens.length == 0) = (s.logits.length == 0) := by
  have hlen := h.logits_length
  cases htokens : s.tokens with
  | nil =>
    rw [htokens, if_pos rfl] at hlen
    rw [hlen]
    rfl
  | cons t ts =>
    have hpos := vocab_pos (h.tokens_below t (by rw [htokens]; exact List.mem_cons_self))
    rw [htokens, if_neg (List.cons_ne_nil t ts)] at hlen
    rw [hlen, List.length_cons, beq_eq_false_iff_ne.2 (Nat.succ_ne_zero _), beq_eq_false_iff_ne.2 (by omega)]

/-! ## Reading -/

/-- The number of logits that is peeked at is the word behind the tokens. -/
theorem peekLogits_eq_ok_iff {rng m : Nat} {ts : List Token} :
    peekLogits shape ts.length
      (head shape ++ (Bytes.ofNat 8 rng ++ (Bytes.ofNat 4 ts.length ++ (writeTokens ts ++ r)))) = .ok m ↔
    ∃ r', readWord 4 r = .ok (m, r') := by
  have hfront : (head shape ++ (Bytes.ofNat 8 rng ++ (Bytes.ofNat 4 ts.length ++ writeTokens ts))).length =
      shape.headBytes + ts.length * 4 := by
    have := length_head shape
    simp only [List.length_append, Bytes.length_ofNat, length_writeTokens]
    omega
  have hregroup : head shape ++ (Bytes.ofNat 8 rng ++ (Bytes.ofNat 4 ts.length ++ (writeTokens ts ++ r))) =
      (head shape ++ (Bytes.ofNat 8 rng ++ (Bytes.ofNat 4 ts.length ++ writeTokens ts))) ++ r := by
    simp only [List.append_assoc]
  rw [hregroup, peekLogits, List.drop_left' hfront, readWord, readBytes]
  cases hsplit : Bytes.split? 4 r with
  | none => simp [bind, Except.bind]
  | some p => simp [bind, Except.bind, pure, Except.pure]

theorem corrupts_peekLogits (shape : StateShape) (tokens : Nat) (s : Bytes) : Corrupts (peekLogits shape tokens s) := by
  rw [peekLogits]
  split
  · exact .ok _
  · exact .corrupt _

/-- **The bytes of a valid state are read back**, whatever comes behind them. -/
theorem decode_bytes (hfits : shape.Fits) (hrows : shape.Allocates) (h : Valid shape s) (rest : Bytes) :
    decode shape (bytes shape s ++ rest) = .ok (s, (bytes shape s).length) := by
  have hcount : s.tokens.length < 256 ^ 4 :=
    Nat.lt_of_le_of_lt h.tokens_le (hfits.sizes ("n_ctx", shape.context) (by simp [StateShape.sizes]))
  have hlogits : s.logits.length < 256 ^ 4 ∧ Memory.fits s.logits.length = true := by
    have hlen := h.logits_length
    split at hlen
    · rw [hlen]
      decide
    · rw [hlen]
      exact ⟨hfits.vocab, hfits.fits_vocab⟩
  have htotal := h.length_bytes
  have hpayload : shape.encodedBytes s.tokens.length s.logits.length - StateShape.digestBytes =
      (payload shape s).length := by
    have := h.length_payload
    omega
  have hparts : bytes shape s ++ rest = head shape ++ (Bytes.ofNat 8 s.rng.toNat ++ (Bytes.ofNat 4 s.tokens.length ++
      (writeTokens s.tokens ++ (Bytes.ofNat 4 s.logits.length ++ (writeSingles s.logits ++
      (writeRows (s.keys.zip s.values) ++ (Digest.sha256 (payload shape s) ++ rest))))))) := by
    simp only [bytes, payload, List.append_assoc]
  have hpeek : peekLogits shape s.tokens.length (bytes shape s ++ rest) = .ok s.logits.length := by
    rw [hparts, peekLogits_eq_ok_iff]
    exact ⟨_, readWord_eq_ok_iff.2 ⟨rfl, hlogits.1⟩⟩
  simp only [decode, ↓throw_bind, bind_eq_ok_iff, guard_eq_ok_iff]
  refine ⟨_, checkHead_eq_ok_iff.2 ⟨hparts, hfits⟩, (s.rng.toNat, _), readWord_eq_ok_iff.2 ⟨rfl, s.rng.toNat_lt⟩,
    (s.tokens.length, _), readWord_eq_ok_iff.2 ⟨rfl, hcount⟩, Nat.not_lt.2 h.tokens_le, _, hpeek,
    h.logits_eq_zero_or, fun hne => hne h.tokens_iff_logits, ?_, ?_, (s.tokens, _),
    readTokens_eq_ok_iff.2 ⟨rfl, rfl⟩, ?_⟩
  · rw [← htotal, List.length_append]
    omega
  · rw [hpayload, bytes, List.append_assoc, List.take_left, List.drop_left, List.take_left' (length_digest _)]
    exact fun hne => hne rfl
  · have hfind : s.tokens.find? (fun t => !t.isBelow shape.vocab) = none := by
      rw [List.find?_eq_none]
      intro t ht
      rw [h.tokens_below t ht]
      decide
    simp only [hfind, bind_eq_ok_iff]
    refine ⟨(s.logits.length, _), readWord_eq_ok_iff.2 ⟨rfl, hlogits.1⟩, (s.logits, _),
      readSingles_eq_ok_iff.2 ⟨rfl, rfl, hlogits.2⟩, ((s.keys, s.values), _),
      readRows_eq_ok_iff.2 ⟨rfl, h.keys_length, h.values_length, h.rows_length, hrows.fits h.tokens_le⟩, ?_⟩
    rw [htotal, UInt64.ofNat_toNat]
    rfl

/-- **What is read was written**: a buffer is accepted only if it starts with the bytes of a valid state. -/
theorem of_decode {buffer : Bytes} {n : Nat} (h : decode shape buffer = .ok (s, n)) :
    shape.Fits ∧ Valid shape s ∧ n = (bytes shape s).length ∧ ∃ rest, buffer = bytes shape s ++ rest := by
  simp only [decode, ↓throw_bind, bind_eq_ok_iff, guard_eq_ok_iff] at h
  obtain ⟨s₀, hhead, ⟨rng, s₁⟩, hrng, ⟨count, s₂⟩, hcount, hcontext, m, hpeek, hvocab, hnone, hsize, hdigest,
    ⟨tokens, s₃⟩, htokens, h⟩ := h
  split at h
  · cases h
  rename_i hfind
  simp only [bind_eq_ok_iff] at h
  obtain ⟨⟨m', s₄⟩, hword, ⟨logits, s₅⟩, hlogits, ⟨⟨keys, values⟩, s₆⟩, hrows, h⟩ := h
  cases h
  obtain ⟨rfl, hfits⟩ := checkHead_eq_ok_iff.1 hhead
  obtain ⟨rfl, hrnglt⟩ := readWord_eq_ok_iff.1 hrng
  obtain ⟨rfl, -⟩ := readWord_eq_ok_iff.1 hcount
  obtain ⟨rfl, rfl⟩ := readTokens_eq_ok_iff.1 htokens
  -- the count that was peeked at is the one that stands before the logits
  obtain ⟨r', hword'⟩ := peekLogits_eq_ok_iff.1 hpeek
  obtain ⟨rfl, rfl⟩ : m' = m ∧ s₄ = r' := by
    rw [hword] at hword'
    cases hword'
    exact ⟨rfl, rfl⟩
  obtain ⟨rfl, -⟩ := readWord_eq_ok_iff.1 hword
  obtain ⟨rfl, rfl, -⟩ := readSingles_eq_ok_iff.1 hlogits
  obtain ⟨rfl, hkeys, hvalues, hlen, -⟩ := readRows_eq_ok_iff.1 hrows
  have hbelow : ∀ t ∈ tokens, t.isBelow shape.vocab = true := by
    intro t ht
    have := List.find?_eq_none.1 hfind t ht
    simpa using this
  have hcountLogits : logits.length = if tokens = [] then 0 else shape.vocab := by
    have hiff : (tokens.length == 0) = (logits.length == 0) := Decidable.not_not.1 hnone
    cases tokens with
    | nil => rw [if_pos rfl, ← beq_iff_eq, ← hiff, List.length_nil, beq_self_eq_true]
    | cons t ts =>
      rw [List.length_cons, beq_eq_false_iff_ne.2 (Nat.succ_ne_zero _)] at hiff
      have hne : logits.length ≠ 0 := beq_eq_false_iff_ne.1 hiff.symm
      rw [if_neg (List.cons_ne_nil t ts)]
      by_cases heq : logits.length = shape.vocab
      · exact heq
      · exact absurd ⟨hne, heq⟩ hvocab
  have hvalid : Valid shape ⟨UInt64.ofNat rng, tokens, logits, keys, values⟩ :=
    ⟨Nat.not_lt.1 hcontext, hbelow, hcountLogits, hkeys, hvalues, hlen⟩
  -- the fields that were read are the payload, and the digest that was checked stands behind it
  have hpayload : payload shape ⟨UInt64.ofNat rng, tokens, logits, keys, values⟩ ++ s₆ =
      head shape ++ (Bytes.ofNat 8 rng ++ (Bytes.ofNat 4 tokens.length ++ (writeTokens tokens ++
        (Bytes.ofNat 4 logits.length ++ (writeSingles logits ++ (writeRows (keys.zip values) ++ s₆)))))) := by
    simp only [payload, UInt64.toNat_ofNat_of_lt' hrnglt, List.append_assoc]
  have hbody : shape.encodedBytes tokens.length logits.length - StateShape.digestBytes =
      (payload shape ⟨UInt64.ofNat rng, tokens, logits, keys, values⟩).length := by
    have hsum : _ = shape.encodedBytes tokens.length logits.length := hvalid.length_payload
    omega
  rw [← hpayload, hbody, List.take_left, List.drop_left] at hdigest
  refine ⟨hfits, hvalid, hvalid.length_bytes.symm, s₆.drop StateShape.digestBytes, ?_⟩
  rw [← hpayload, bytes, Decidable.not_not.1 hdigest, List.append_assoc, List.take_append_drop]

theorem corrupts_decode (hrows : shape.Allocates) (buffer : Bytes) : Corrupts (decode shape buffer) := by
  simp only [decode, ↓throw_bind]
  refine (corrupts_checkHead shape buffer).bind fun s₀ hhead => (corrupts_readWord 8 _).bind fun _ _ =>
    (corrupts_readWord 4 _).bind fun ⟨count, _⟩ _ => .guard fun hcontext =>
    (corrupts_peekLogits shape _ _).bind fun m _ => .guard fun hvocab => .guard fun _ => .guard fun _ =>
    .guard fun _ => (corrupts_readTokens _ _).bind fun _ _ => ?_
  have hfits := (checkHead_eq_ok_iff.1 hhead).2
  have hm : Memory.fits m = true := by
    by_cases hzero : m = 0
    · rw [hzero]
      decide
    · rw [show m = shape.vocab from Decidable.not_not.1 fun hne => hvocab ⟨hzero, hne⟩]
      exact hfits.fits_vocab
  split
  · exact .corrupt _
  · exact (corrupts_readWord 4 _).bind fun _ _ => (corrupts_readSingles hm _).bind fun _ _ =>
      (corrupts_readRows (hrows.fits (Nat.not_lt.1 hcontext)) _).bind fun _ _ => .ok _

/-- No proper front of the bytes of a state is accepted. -/
theorem not_decode_take (hrows : shape.Allocates) (hfits : shape.Fits) (h : Valid shape s) {n : Nat}
    (hn : n < (bytes shape s).length) {p : Snapshot × Nat} : decode shape ((bytes shape s).take n) ≠ .ok p := by
  obtain ⟨s', n'⟩ := p
  intro hdecode
  obtain ⟨-, hvalid, rfl, rest, hrest⟩ := of_decode hdecode
  -- both states are read from the same bytes
  have hread := decode_bytes hfits hrows hvalid (rest ++ (bytes shape s).drop n)
  rw [← List.append_assoc, ← hrest, List.take_append_drop] at hread
  have hread' := decode_bytes hfits hrows h []
  rw [List.append_nil, hread] at hread'
  cases hread'
  have := congrArg List.length hrest
  rw [List.length_take, List.length_append] at this
  omega

end Snapshot
end CausalLM
