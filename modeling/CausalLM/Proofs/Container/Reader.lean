import CausalLM.Container.Header
import CausalLM.Proofs.Outcome
/-!
# Proofs.Container.Reader — the header as one reader after the other

The functions that read a header carry bounds along that say how much is left, so that they end.  Here they are
without: a `Reader` takes bytes and gives a value and the bytes behind it, and readers are put together by `do`.  Every
reading is that of its reader (`plain_value`, `readPairs_eq`, `readTensors_eq`), and the whole header is `Reader.header`
(`read_eq`).
-/
namespace CausalLM.Container

/-- **A reader**: what it reads, and the bytes behind it. -/
abbrev Reader (α : Type) := StateT Bytes (Except Error) α

/-- A reading, its bound on what is left forgotten. -/
def plain {α : Type} {s : Bytes} (x : Reading α s) : Except Error (α × Bytes) := x.map fun p => (p.1, p.2.1)

/-- The metadata with these pairs, added in order. -/
def Metadata.withPairs (m : Metadata) (pairs : List (String × Metadata.Value)) : Metadata :=
  pairs.foldl (fun m p => m.insert p.1 p.2) m

namespace Reader

variable {α β : Type} {s r : Bytes} {a : α} {e : Error}

theorem bind_of_ok {f : Reader α} {g : α → Reader β} (h : f s = .ok (a, r)) : (f >>= g) s = g a r := by
  change (f s >>= fun p => g p.1 p.2) = _
  rw [h]
  rfl

theorem bind_of_error {f : Reader α} {g : α → Reader β} (h : f s = .error e) : (f >>= g) s = .error e := by
  change (f s >>= fun p => g p.1 p.2) = _
  rw [h]
  rfl

theorem bind_eq_ok {f : Reader α} {g : α → Reader β} {b : β} {t : Bytes} :
    (f >>= g) s = .ok (b, t) ↔ ∃ a r, f s = .ok (a, r) ∧ g a r = .ok (b, t) := by
  change (f s >>= fun p => g p.1 p.2) = _ ↔ _
  rw [bind_eq_ok_iff, Prod.exists]

/-- Refuses the format. -/
def refuse (why : String) : Reader α := fun _ => .error (.formatMismatch why)

def field (n : Nat) : Reader Bytes := fun s =>
  match Bytes.split? n s with
  | none => .error truncatedHeader
  | some p => .ok p

def word32 : Reader Nat := do return (← field 4).toNat

def word64 : Reader Nat := do return (← field 8).toNat

def string : Reader String := do
  let n ← word64
  if maxStringBytes < n then refuse ("string too large: " ++ toString n ++ " bytes")
  else do return Utf8.toStringLossy (← field n)

/-- So many of one kind, one after the other. -/
def repeated (f : Reader α) : Nat → Reader (List α)
  | 0 => pure []
  | n + 1 => do
    let a ← f
    let rest ← repeated f n
    return a :: rest

/-- A value of the numbered type. -/
def value (type : Nat) : Reader Metadata.Value := fun s => plain (readValue type s)

def array : Reader Metadata.Value := do
  let type ← word32
  let n ← word64
  if maxArrayLength < n then refuse ("array too large: " ++ toString n ++ " elements")
  else do return .array (← repeated (value type) n)

def scalar (type : Nat) : Reader Metadata.Value :=
  match scalar? type with
  | some (width, value) => do return value (← field (width + 1))
  | none => refuse ("unknown metadata value type " ++ toString type)

def pair : Reader (String × Metadata.Value) := do
  let key ← string
  let type ← word32
  let v ← value type
  return (key, v)

def tensor (total : Nat) : Reader (TensorInfo × Nat) := do
  let name ← string
  let n ← word32
  if n = 0 ∨ maxDims < n then refuse ("tensor '" ++ name ++ "' has " ++ toString n ++ " dimensions")
  else do
    let dims ← repeated word64 n
    let id ← word32
    match ElementType.ofId? id with
    | none => refuse ("unknown ggml type " ++ toString id)
    | some type => do
      let offset ← word64
      match totalWith total dims with
      | none => refuse ("tensor '" ++ name ++ "' dimensions " ++ showDims dims ++ " overflow")
      | some total => return ({ name, dims, type, offset }, total)

def tensors : Nat → Nat → Reader (List TensorInfo)
  | 0, _ => pure []
  | n + 1, total => do
    let (info, total) ← tensor total
    let rest ← tensors n total
    return info :: rest

/-- The four words at the front: what marks a container, its version, the numbers of its tensors and of its pairs. -/
def lead : Reader (Nat × Nat × Nat × Nat) := do
  let word ← word32
  let version ← word32
  let tensorCount ← word64
  let pairCount ← word64
  return (word, version, tensorCount, pairCount)

/-- The version, the metadata pairs and the tensors of a header. -/
def header : Reader (Nat × List (String × Metadata.Value) × List TensorInfo) := do
  let word ← word32
  if word ≠ magic then
    refuse ("invalid gguf magic: expected " ++ Header.showMagic magic ++ ", got " ++ Header.showMagic word)
  else do
    let version ← word32
    if !Header.supportedVersion version then refuse ("unsupported gguf version " ++ toString version)
    else do
      let tensorCount ← word64
      let pairCount ← word64
      let pairs ← repeated pair pairCount
      let infos ← tensors tensorCount 0
      return (version, pairs, infos)

/-! ## The readings -/

theorem field_of_none {n : Nat} (h : Bytes.split? n s = none) : field n s = .error truncatedHeader := by
  rw [field, h]

theorem field_of_some {n : Nat} {b : Bytes} (h : Bytes.split? n s = some (b, r)) : field n s = .ok (b, r) := by
  rw [field, h]

theorem field_eq_ok_iff {n : Nat} {b : Bytes} : field n s = .ok (b, r) ↔ s = b ++ r ∧ b.length = n := by
  rw [← Bytes.split?_eq_some_iff]
  cases hsplit : Bytes.split? n s with
  | none => simp [field_of_none hsplit]
  | some p => simp [field_of_some hsplit, Prod.ext_iff]

/-- A word is the number of its bytes. -/
theorem map_field_eq_ok_iff {width n : Nat} : (do return Bytes.toNat (← field width) : Reader Nat) s = .ok (n, r) ↔
    ∃ b, s = b ++ r ∧ b.length = width ∧ Bytes.toNat b = n := by
  rw [bind_eq_ok]
  constructor
  · rintro ⟨b, t, hfield, h⟩
    cases h
    obtain ⟨hs, hb⟩ := field_eq_ok_iff.1 hfield
    exact ⟨b, hs, hb, rfl⟩
  · rintro ⟨b, hs, hb, rfl⟩
    exact ⟨b, r, field_eq_ok_iff.2 ⟨hs, hb⟩, rfl⟩

/-- The four words at the front, one by one. -/
theorem lead_eq_ok_iff {word version tensorCount n : Nat} :
    lead s = .ok ((word, version, tensorCount, n), r) ↔ ∃ r₁ r₂ r₃, word32 s = .ok (word, r₁) ∧
      word32 r₁ = .ok (version, r₂) ∧ word64 r₂ = .ok (tensorCount, r₃) ∧ word64 r₃ = .ok (n, r) := by
  constructor
  · intro h
    obtain ⟨_, r₁, h₁, h⟩ := bind_eq_ok.1 h
    obtain ⟨_, r₂, h₂, h⟩ := bind_eq_ok.1 h
    obtain ⟨_, r₃, h₃, h⟩ := bind_eq_ok.1 h
    obtain ⟨_, r₄, h₄, h⟩ := bind_eq_ok.1 h
    cases h
    exact ⟨r₁, r₂, r₃, h₁, h₂, h₃, h₄⟩
  · rintro ⟨r₁, r₂, r₃, h₁, h₂, h₃, h₄⟩
    rw [lead, bind_of_ok h₁, bind_of_ok h₂, bind_of_ok h₃, bind_of_ok h₄]
    rfl

/-- What was read so many times was read each time. -/
theorem of_mem_repeated {f : Reader α} : ∀ {n : Nat} {s r : Bytes} {l : List α}, repeated f n s = .ok (l, r) →
    ∀ a ∈ l, ∃ t u, f t = .ok (a, u)
  | 0, s, r, l, h => by
    cases h
    intro a ha
    cases ha
  | n + 1, s, r, l, h => by
    obtain ⟨a, t, ha, h⟩ := bind_eq_ok.1 h
    obtain ⟨rest, u, hrest, h⟩ := bind_eq_ok.1 h
    cases h
    exact List.forall_mem_cons.2 ⟨⟨s, t, ha⟩, of_mem_repeated hrest⟩

theorem exists_of_plain {x : Reading α s} (h : plain x = .ok (a, r)) : ∃ hr, x = .ok (a, ⟨r, hr⟩) := by
  cases x with
  | error e => cases h
  | ok p =>
    cases h
    exact ⟨p.2.2, rfl⟩

/-- **A reading and what is made of it**, by the reader and the one that follows it. -/
theorem eq_map_bind {ρ γ : Type} {x : Except Error ρ} {out : ρ → α × Bytes} {f : Reader α} {g : α → Reader β}
    {k : β × Bytes → γ} {y : Except Error γ} (hx : x.map out = f s) (herror : ∀ e, x = .error e → y = .error e)
    (hok : ∀ p, x = .ok p → y = (g (out p).1 (out p).2).map k) : y = ((f >>= g) s).map k := by
  cases h : x with
  | error e =>
    rw [h] at hx
    rw [herror e h, bind_of_error hx.symm]
    rfl
  | ok p =>
    rw [h] at hx
    rw [hok p h, bind_of_ok hx.symm]

theorem eq_bind {ρ : Type} {x : Except Error ρ} {out : ρ → α × Bytes} {f : Reader α} {g : α → Reader β}
    {y : Except Error (β × Bytes)} (hx : x.map out = f s) (herror : ∀ e, x = .error e → y = .error e)
    (hok : ∀ p, x = .ok p → y = g (out p).1 (out p).2) : y = (f >>= g) s := by
  have h := eq_map_bind (k := id) hx herror fun p hp => by rw [Except.map_id]; exact hok p hp
  rwa [Except.map_id] at h

theorem plain_field (width : Nat) (s : Bytes) : plain (readField width s) = field (width + 1) s := by
  unfold readField
  split
  · rename_i h
    rw [field_of_none h]
    rfl
  · rename_i h
    rw [field_of_some h]
    rfl

theorem plain_map {x : Reading α s} {f : Reader α} (hx : plain x = f s) (g : α → β) :
    plain (x.map fun (a, r) => (g a, r)) = (do return g (← f) : Reader β) s :=
  eq_bind hx (fun e h => by rw [h]; rfl) fun p h => by rw [h]; rfl

theorem plain_word32 (s : Bytes) : plain (readWord32 s) = word32 s := plain_map (plain_field 3 s) _

theorem plain_word64 (s : Bytes) : plain (readWord64 s) = word64 s := plain_map (plain_field 7 s) _

theorem plain_string (s : Bytes) : plain (readString s) = string s := by
  unfold readString
  refine eq_bind (plain_word64 s) (fun e h => by rw [h]; rfl) ?_
  rintro ⟨n, r⟩ h
  rw [h]
  by_cases hlarge : maxStringBytes < n
  · simp only [if_pos hlarge]
    rfl
  · simp only [if_neg hlarge]
    split
    · rename_i hnone
      rw [bind_of_error (field_of_none hnone)]
      rfl
    · rename_i hsome
      rw [bind_of_ok (field_of_some hsome)]
      rfl

theorem plain_value (type : Nat) (s : Bytes) : plain (readValue type s) = value type s := rfl

theorem map_readItems (type : Nat) : ∀ (n : Nat) (done : List Metadata.Value) (s : Bytes) {limit : Nat}
    (h : s.length < limit), (readItems type n done s limit h).map (fun p => (p.1, p.2.1)) =
      (do return done.reverse ++ (← repeated (value type) n) : Reader _) s
  | 0, done, s, limit, h => by
    rw [readItems, repeated, pure_bind, List.append_nil]
    rfl
  | n + 1, done, s, limit, h => by
    rw [readItems, repeated, bind_assoc]
    refine eq_bind (plain_value type s) (fun e h => by rw [h]; rfl) ?_
    rintro ⟨v, r⟩ hv
    rw [hv]
    simp only
    rw [map_readItems type n (v :: done) r.1 (Nat.lt_trans r.2 h)]
    simp

theorem value_eq (type : Nat) : value type = if type = stringType then do return .string (← string)
    else if type = arrayType then array else scalar type := by
  funext s
  rw [value, readValue]
  by_cases hstring : type = stringType
  · rw [if_pos hstring, if_pos hstring]
    exact plain_map (plain_string s) _
  rw [if_neg hstring, if_neg hstring]
  by_cases harray : type = arrayType
  · rw [if_pos harray, if_pos harray]
    refine eq_bind (plain_word32 s) (fun e h => by rw [h]; rfl) ?_
    rintro ⟨itemType, r⟩ hword
    rw [hword]
    refine eq_bind (plain_word64 r.1) (fun e h => by simp only [h]; rfl) ?_
    rintro ⟨n, t⟩ hcount
    simp only [hcount]
    by_cases hlarge : maxArrayLength < n
    · simp only [if_pos hlarge]
      rfl
    · simp only [if_neg hlarge]
      have hitems := map_readItems itemType n [] t.1 (Nat.lt_trans t.2 r.2)
      simp only [List.reverse_nil, List.nil_append, bind_pure] at hitems
      exact eq_bind hitems (fun e h => by simp only [h]; rfl) fun p h => by simp only [h]; rfl
  · rw [if_neg harray, if_neg harray, scalar]
    cases hscalar : scalar? type with
    | none => rfl
    | some p => exact plain_map (plain_field p.1 s) p.2

theorem plain_pair (s : Bytes) : plain (readPair s) = pair s := by
  rw [readPair]
  refine eq_bind (plain_string s) (fun e h => by rw [h]; rfl) ?_
  rintro ⟨key, r⟩ hkey
  rw [hkey]
  refine eq_bind (plain_word32 r.1) (fun e h => by simp only [h]; rfl) ?_
  rintro ⟨type, t⟩ htype
  simp only [htype]
  refine eq_bind (plain_value type t.1) (fun e h => by simp only [h]; rfl) ?_
  rintro ⟨v, u⟩ hvalue
  simp only [hvalue]
  rfl

theorem readPairs_eq : ∀ (n : Nat) (m : Metadata) (s : Bytes), readPairs n m s =
    (do return m.withPairs (← repeated pair n) : Reader _) s
  | 0, _, _ => rfl
  | n + 1, m, s => by
    rw [readPairs, repeated, bind_assoc]
    refine eq_bind (plain_pair s) (fun e h => by rw [h]) ?_
    rintro ⟨p, r⟩ h
    rw [h]
    simp only
    rw [readPairs_eq n]
    simp [Metadata.withPairs]

theorem map_readWords : ∀ (n : Nat) (s : Bytes),
    (readWords n s).map (fun p => (p.1, p.2.1)) = repeated word64 n s
  | 0, _ => rfl
  | n + 1, s => by
    rw [readWords]
    refine eq_bind (plain_word64 s) (fun e h => by rw [h]; rfl) ?_
    rintro ⟨d, r⟩ h
    rw [h]
    exact eq_bind (map_readWords n r.1) (fun e h => by simp only [h]; rfl) fun p h => by simp only [h]; rfl

theorem plain_tensor (total : Nat) (s : Bytes) : plain (readTensor total s) = tensor total s := by
  rw [readTensor]
  refine eq_bind (plain_string s) (fun e h => by rw [h]; rfl) ?_
  rintro ⟨name, r⟩ hname
  rw [hname]
  refine eq_bind (plain_word32 r.1) (fun e h => by simp only [h]; rfl) ?_
  rintro ⟨n, t⟩ hcount
  simp only [hcount]
  by_cases hdims : n = 0 ∨ maxDims < n
  · simp only [if_pos hdims]
    rfl
  simp only [if_neg hdims]
  refine eq_bind (map_readWords n t.1) (fun e h => by simp only [h]; rfl) ?_
  rintro ⟨dims, u⟩ hwords
  simp only [hwords]
  refine eq_bind (plain_word32 u.1) (fun e h => by simp only [h]; rfl) ?_
  rintro ⟨id, v⟩ hid
  simp only [hid, ElementType.ofId]
  cases htype : ElementType.ofId? id with
  | none => rfl
  | some type =>
    refine eq_bind (plain_word64 v.1) (fun e h => by simp only [h]; rfl) ?_
    rintro ⟨offset, w⟩ hoffset
    simp only [hoffset]
    cases htotal : totalWith total dims with
    | none => rfl
    | some total' => rfl

theorem readTensors_eq : ∀ (n total : Nat) (done : List TensorInfo) (s : Bytes), readTensors n total done s =
    (do return done.reverse ++ (← tensors n total) : Reader _) s
  | 0, _, done, _ => by
    rw [readTensors, tensors, pure_bind, List.append_nil]
    rfl
  | n + 1, total, done, s => by
    rw [readTensors, tensors, bind_assoc]
    refine eq_bind (plain_tensor total s) (fun e h => by rw [h]) ?_
    rintro ⟨⟨info, total'⟩, r⟩ h
    rw [h]
    simp only
    rw [readTensors_eq n]
    simp

theorem read_eq (file : Bytes) : Header.read file = (header file).map fun ((version, pairs, tensors), r) =>
    let metadata := Metadata.empty.withPairs pairs
    let size := file.length - r.length
    ({ version, metadata, tensors, dataOffset := Word.roundUp metadata.alignment size }, size) := by
  unfold Header.read header
  refine eq_map_bind (plain_word32 file) (fun e h => by rw [h]; rfl) ?_
  rintro ⟨word, r⟩ hword
  rw [hword, ok_bind]
  dsimp only
  by_cases hmagic : word ≠ magic
  · rw [if_pos hmagic, if_pos hmagic]
    rfl
  rw [if_neg hmagic, if_neg hmagic]
  refine eq_map_bind (plain_word32 r.1) (fun e h => by rw [h]; rfl) ?_
  rintro ⟨version, r₁⟩ hversion
  rw [hversion, ok_bind]
  dsimp only
  by_cases hsupported : (!Header.supportedVersion version) = true
  · rw [if_pos hsupported, if_pos hsupported]
    rfl
  rw [if_neg hsupported, if_neg hsupported]
  refine eq_map_bind (plain_word64 r₁.1) (fun e h => by rw [h]; rfl) ?_
  rintro ⟨tensorCount, r₂⟩ htensors
  rw [htensors, ok_bind]
  refine eq_map_bind (plain_word64 r₂.1) (fun e h => by rw [h]; rfl) ?_
  rintro ⟨pairCount, r₃⟩ hcount
  rw [hcount, ok_bind, readPairs_eq]
  dsimp only
  cases hpairs : repeated pair pairCount r₃.1 with
  | error e =>
    rw [bind_of_error hpairs, bind_of_error hpairs]
    rfl
  | ok p =>
    rw [bind_of_ok hpairs, bind_of_ok hpairs]
    change (readTensors tensorCount 0 [] p.2 >>= fun q => _) = _
    rw [readTensors_eq]
    cases hinfos : tensors tensorCount 0 p.2 with
    | error e =>
      rw [bind_of_error hinfos, bind_of_error hinfos]
      rfl
    | ok q =>
      rw [bind_of_ok hinfos, bind_of_ok hinfos]
      rfl

/-- A header, its tensors read by a reader of so many. -/
def headerWith (infos : Nat → Reader (List TensorInfo)) :
    Reader (Nat × List (String × Metadata.Value) × List TensorInfo) := do
  let word ← word32
  if word ≠ magic then
    refuse ("invalid gguf magic: expected " ++ Header.showMagic magic ++ ", got " ++ Header.showMagic word)
  else do
    let version ← word32
    if !Header.supportedVersion version then refuse ("unsupported gguf version " ++ toString version)
    else do
      let tensorCount ← word64
      let pairCount ← word64
      let pairs ← repeated pair pairCount
      let infos ← infos tensorCount
      return (version, pairs, infos)

theorem header_eq_headerWith : header = headerWith fun n => tensors n 0 := rfl

section
variable {f : Nat → Reader (List TensorInfo)} {version : Nat} {pairs : List (String × Metadata.Value)}
  {infos : List TensorInfo}

/-- What stands in a header that is read: the four words, the pairs, the tensors. -/
theorem of_headerWith_eq_ok (h : headerWith f s = .ok ((version, pairs, infos), r)) :
    Header.supportedVersion version = true ∧
      ∃ tensorCount pairCount u t, lead s = .ok ((magic, version, tensorCount, pairCount), u) ∧
        repeated pair pairCount u = .ok (pairs, t) ∧ f tensorCount t = .ok (infos, r) := by
  obtain ⟨word, r₁, hword, h⟩ := bind_eq_ok.1 h
  split at h
  · cases h
  rename_i hmagic
  obtain ⟨version', r₂, hversion, h⟩ := bind_eq_ok.1 h
  split at h
  · cases h
  rename_i hsupported
  obtain ⟨tensorCount, r₃, htensors, h⟩ := bind_eq_ok.1 h
  obtain ⟨pairCount, r₄, hcount, h⟩ := bind_eq_ok.1 h
  obtain ⟨pairs', t, hpairs, h⟩ := bind_eq_ok.1 h
  obtain ⟨infos', r₅, hinfos, h⟩ := bind_eq_ok.1 h
  cases h
  have hlead := lead_eq_ok_iff.2 ⟨r₁, r₂, r₃, Decidable.not_not.1 hmagic ▸ hword, hversion, htensors, hcount⟩
  exact ⟨by simpa using hsupported, tensorCount, pairCount, r₄, t, hlead, hpairs, hinfos⟩

/-- Behind the words at its front and the pairs, a header goes on with its tensors. -/
theorem headerWith_of_front {tensorCount pairCount : Nat} {u t : Bytes}
    (hversion : Header.supportedVersion version = true)
    (hlead : lead s = .ok ((magic, version, tensorCount, pairCount), u))
    (hpairs : repeated pair pairCount u = .ok (pairs, t)) :
    headerWith f s = (do return (version, pairs, ← f tensorCount) : Reader _) t := by
  obtain ⟨r₁, r₂, r₃, h₁, h₂, h₃, h₄⟩ := lead_eq_ok_iff.1 hlead
  rw [headerWith, bind_of_ok h₁, if_neg (by simp), bind_of_ok h₂, if_neg (by simp [hversion]), bind_of_ok h₃,
    bind_of_ok h₄, bind_of_ok hpairs]

theorem of_header_eq_ok (h : header s = .ok ((version, pairs, infos), r)) :
    Header.supportedVersion version = true ∧
      ∃ tensorCount pairCount u t, lead s = .ok ((magic, version, tensorCount, pairCount), u) ∧
        repeated pair pairCount u = .ok (pairs, t) ∧ tensors tensorCount 0 t = .ok (infos, r) := by
  rw [header_eq_headerWith] at h
  exact of_headerWith_eq_ok h

end

theorem exists_of_read {file : Bytes} {h : Header} {size : Nat} (hread : Header.read file = .ok (h, size)) :
    ∃ pairs r, header file = .ok ((h.version, pairs, h.tensors), r) ∧ h.metadata = Metadata.empty.withPairs pairs ∧
      size = file.length - r.length ∧ h.dataOffset = Word.roundUp h.metadata.alignment size := by
  rw [read_eq] at hread
  obtain ⟨⟨⟨version, pairs, infos⟩, r⟩, hheader, heq⟩ := map_eq_ok_iff.1 hread
  cases heq
  exact ⟨pairs, r, hheader, rfl, rfl, rfl⟩

end Reader

theorem Header.parse_eq_ok_iff {file : Bytes} {h : Header} : parse file = .ok h ↔ ∃ size, read file = .ok (h, size) := by
  rw [parse, map_eq_ok_iff, Prod.exists]
  constructor
  · rintro ⟨_, size, hread, rfl⟩
    exact ⟨size, hread⟩
  · rintro ⟨size, hread⟩
    exact ⟨h, size, hread, rfl⟩

/-- **What stands in a parsed file**, in this order; the metadata is made of the pairs. -/
theorem Header.exists_of_parse {file : Bytes} {h : Header} (hparse : parse file = .ok h) :
    supportedVersion h.version = true ∧ ∃ tensorCount pairCount pairs u t r,
      Reader.lead file = .ok ((magic, h.version, tensorCount, pairCount), u) ∧
      Reader.repeated Reader.pair pairCount u = .ok (pairs, t) ∧
      Reader.tensors tensorCount 0 t = .ok (h.tensors, r) ∧ h.metadata = Metadata.empty.withPairs pairs := by
  obtain ⟨size, hread⟩ := parse_eq_ok_iff.1 hparse
  obtain ⟨pairs, r, hheader, hmetadata, -⟩ := Reader.exists_of_read hread
  obtain ⟨hversion, tensorCount, pairCount, u, t, hlead, hpairs, htensors⟩ := Reader.of_header_eq_ok hheader
  exact ⟨hversion, tensorCount, pairCount, pairs, u, t, r, hlead, hpairs, htensors, hmetadata⟩

end CausalLM.Container
