import CausalLM.Proofs.Container.Nesting
/-!
# Proofs.Container.Work — what a header makes its parser do

The counts in a header are only claims, and a loop that takes one at its word may go on for long.  Here the readers of a
header keep account of the rounds of their loops and of what they build (`Counted`); apart from that they are those of
the parser (`Counted.answers_header`).  Every round takes a byte at least, so there are no more rounds than bytes, also
in a file that is refused, and a header is no smaller than what is built from it (`Header.bounded_readCounted`).
-/
namespace CausalLM.Container

mutual

/-- The values a value is made of, itself and every item of every array. -/
def Metadata.Value.count : Metadata.Value → Nat
  | .array items => Metadata.Value.countAll items + 1
  | _ => 1

def Metadata.Value.countAll : List Metadata.Value → Nat
  | [] => 0
  | v :: items => v.count + Metadata.Value.countAll items

end

theorem Metadata.Value.countAll_eq : ∀ items, Metadata.Value.countAll items = (items.map Metadata.Value.count).sum
  | [] => rfl
  | v :: items => by rw [countAll, countAll_eq items, List.map_cons, List.sum_cons]

theorem Metadata.Value.count_array (items : List Metadata.Value) :
    (Metadata.Value.array items).count = (items.map Metadata.Value.count).sum + 1 := by
  rw [count, countAll_eq]

/-- **What a parser has done.**  A call for an item of an array is a round of the loop over its items. -/
@[ext]
structure Work where
  /-- Rounds of loops, begun if not ended. -/
  rounds : Nat := 0
  /-- Values of metadata, items of arrays among them. -/
  values : Nat := 0
  keys : Nat := 0
  tensors : Nat := 0
  /-- Bytes of strings, as they stand in the file. -/
  text : Nat := 0
  deriving DecidableEq, Repr

namespace Work

instance : Add Work where
  add w w' := ⟨w.rounds + w'.rounds, w.values + w'.values, w.keys + w'.keys, w.tensors + w'.tensors, w.text + w'.text⟩

@[simp] theorem add_rounds (w w' : Work) : (w + w').rounds = w.rounds + w'.rounds := rfl

@[simp] theorem add_values (w w' : Work) : (w + w').values = w.values + w'.values := rfl

@[simp] theorem add_keys (w w' : Work) : (w + w').keys = w.keys + w'.keys := rfl

@[simp] theorem add_tensors (w w' : Work) : (w + w').tensors = w.tensors + w'.tensors := rfl

@[simp] theorem add_text (w w' : Work) : (w + w').text = w.text + w'.text := rfl

@[simp] theorem zero_add (w : Work) : {} + w = w := by ext <;> simp

@[simp] theorem add_zero (w : Work) : w + {} = w := rfl

end Work

/-- **A reader that keeps account**: what it reads and the bytes behind it, or why it fails, and its work so far. -/
def Counted (α : Type) := Bytes → Except Error (α × Bytes) × Work

namespace Counted

variable {α β : Type}

instance : Monad Counted where
  pure a := fun s => (.ok (a, s), {})
  bind g k := fun s => match g s with
    | (.error e, w) => (.error e, w)
    | (.ok (a, r), w) => ((k a r).1, w + (k a r).2)

/-- A reader that has nothing to account for. -/
def lift (f : Reader α) : Counted α := fun s => (f s, {})

def note (w : Work) : Counted Unit := fun s => (.ok ((), s), w)

def string : Counted String := do
  let n ← lift Reader.word64
  if maxStringBytes < n then lift (Reader.refuse ("string too large: " ++ toString n ++ " bytes"))
  else do
    let b ← lift (Reader.field n)
    note { text := b.length }
    return Utf8.toStringLossy b

def repeated (g : Counted α) : Nat → Counted (List α)
  | 0 => pure []
  | n + 1 => do
    note { rounds := 1 }
    let a ← g
    let rest ← repeated g n
    return a :: rest

/-- A value of the numbered type, its items read by `item`. -/
def valueWith (item : Nat → Counted Metadata.Value) (type : Nat) : Counted Metadata.Value := do
  note { values := 1 }
  if type = stringType then do return .string (← string)
  else if type = arrayType then do
    let itemType ← lift Reader.word32
    let n ← lift Reader.word64
    if maxArrayLength < n then lift (Reader.refuse ("array too large: " ++ toString n ++ " elements"))
    else do return .array (← repeated (item itemType) n)
  else lift (Reader.scalar type)

/-- **A value of the numbered type.**  Items have fewer bytes than their array (`value_eq`). -/
def value (type : Nat) (s : Bytes) : Except Error (Metadata.Value × Bytes) × Work :=
  valueWith (fun itemType t => if t.length < s.length then value itemType t else lift (Reader.value itemType) t) type s
termination_by s.length

def pair : Counted (String × Metadata.Value) := do
  let key ← string
  note { keys := 1 }
  let type ← lift Reader.word32
  let v ← value type
  return (key, v)

/-- The type and the offset of a tensor, behind its name and its dimensions. -/
def place (total : Nat) (name : String) (dims : List Nat) : Counted (TensorInfo × Nat) := do
  let id ← lift Reader.word32
  match ElementType.ofId? id with
  | none => lift (Reader.refuse ("unknown ggml type " ++ toString id))
  | some type => do
    let offset ← lift Reader.word64
    match totalWith total dims with
    | none => lift (Reader.refuse ("tensor '" ++ name ++ "' dimensions " ++ showDims dims ++ " overflow"))
    | some total => do
      note { tensors := 1 }
      return ({ name, dims, type, offset }, total)

def tensor (total : Nat) : Counted (TensorInfo × Nat) := do
  let name ← string
  let n ← lift Reader.word32
  if n = 0 ∨ maxDims < n then
    lift (Reader.refuse ("tensor '" ++ name ++ "' has " ++ toString n ++ " dimensions"))
  else do place total name (← repeated (lift Reader.word64) n)

def tensors : Nat → Nat → Counted (List TensorInfo)
  | 0, _ => pure []
  | n + 1, total => do
    note { rounds := 1 }
    let (info, total) ← tensor total
    let rest ← tensors n total
    return info :: rest

def header : Counted (Nat × List (String × Metadata.Value) × List TensorInfo) := do
  let word ← lift Reader.word32
  if word ≠ magic then
    lift (Reader.refuse
      ("invalid gguf magic: expected " ++ Header.showMagic magic ++ ", got " ++ Header.showMagic word))
  else do
    let version ← lift Reader.word32
    if !Header.supportedVersion version then lift (Reader.refuse ("unsupported gguf version " ++ toString version))
    else do
      let tensorCount ← lift Reader.word64
      let pairCount ← lift Reader.word64
      let pairs ← repeated pair pairCount
      let infos ← tensors tensorCount 0
      return (version, pairs, infos)

variable {s t u : Bytes} {w : Work} {a : α} {e : Error} {x : Except Error (α × Bytes)}

/-! ## One after the other -/

theorem bind_of_ok {g : Counted α} {k : α → Counted β} (h : g s = (.ok (a, t), w)) :
    (g >>= k) s = ((k a t).1, w + (k a t).2) := by
  simp only [bind, h]

theorem bind_of_error {g : Counted α} {k : α → Counted β} (h : g s = (.error e, w)) :
    (g >>= k) s = (.error e, w) := by
  simp only [bind, h]

/-- **Two readers in a row**: the first fails and no more is done, or the second goes on with what the first read. -/
theorem of_bind {g : Counted β} {k : β → Counted α} (h : (g >>= k) s = (x, w)) :
    (∃ e, g s = (.error e, w) ∧ x = .error e) ∨
      ∃ b t w₁ w₂, g s = (.ok (b, t), w₁) ∧ k b t = (x, w₂) ∧ w = w₁ + w₂ := by
  rcases hg : g s with ⟨e | ⟨b, t⟩, w₁⟩
  · rw [bind_of_error hg] at h
    cases h
    exact .inl ⟨e, rfl, rfl⟩
  · rw [bind_of_ok hg] at h
    cases h
    exact .inr ⟨b, t, w₁, _, rfl, rfl, rfl⟩

theorem of_lift_bind {f : Reader β} {k : β → Counted α} (h : (lift f >>= k) s = (x, w)) :
    (∃ e, f s = .error e ∧ x = .error e ∧ w = {}) ∨ ∃ b t, f s = .ok (b, t) ∧ k b t = (x, w) := by
  obtain ⟨e, hf, rfl⟩ | ⟨b, t, w₁, w₂, hf, hk, rfl⟩ := of_bind h
  · obtain ⟨hanswer, rfl⟩ := Prod.mk.inj hf
    exact .inl ⟨e, hanswer, rfl, rfl⟩
  · obtain ⟨hanswer, rfl⟩ := Prod.mk.inj hf
    exact .inr ⟨b, t, hanswer, by rw [hk, Work.zero_add]⟩

theorem of_note_bind {w₀ : Work} {k : Unit → Counted α} (h : (note w₀ >>= k) s = (x, w)) :
    ∃ w₁, k () s = (x, w₁) ∧ w = w₀ + w₁ := by
  rw [bind_of_ok (g := note w₀) rfl] at h
  cases h
  exact ⟨_, rfl, rfl⟩

/-! ## The answers are those of the readers -/

/-- **The reader `g` answers as `f` does.** -/
def Answers (g : Counted α) (f : Reader α) : Prop := ∀ s, (g s).1 = f s

theorem answers_lift (f : Reader α) : Answers (lift f) f := fun _ => rfl

theorem answers_pure (a : α) : Answers (pure a) (pure a) := fun _ => rfl

theorem Answers.bind {g : Counted α} {f : Reader α} {k : α → Counted β} {k' : α → Reader β} (hg : Answers g f)
    (hk : ∀ a, Answers (k a) (k' a)) : Answers (g >>= k) (f >>= k') := by
  intro s
  have hs := hg s
  rcases hgs : g s with ⟨e | ⟨a, t⟩, w⟩
  · rw [hgs] at hs
    rw [bind_of_error hgs, Reader.bind_of_error hs.symm]
  · rw [hgs] at hs
    rw [bind_of_ok hgs, Reader.bind_of_ok hs.symm]
    exact hk a t

theorem Answers.note {k : Unit → Counted α} {f : Reader α} (w : Work) (hk : Answers (k ()) f) :
    Answers (note w >>= k) f := fun s => by
  rw [bind_of_ok (g := Counted.note w) rfl]
  exact hk s

theorem Answers.repeated {g : Counted α} {f : Reader α} (h : Answers g f) : ∀ n,
    Answers (repeated g n) (Reader.repeated f n)
  | 0 => answers_pure _
  | n + 1 => .note _ (h.bind fun _ => (Answers.repeated h n).bind fun _ => answers_pure _)

theorem answers_string : Answers string Reader.string := by
  refine (answers_lift _).bind fun n => ?_
  split
  · exact answers_lift _
  · exact (answers_lift _).bind fun b => .note _ (answers_pure _)

theorem answers_valueWith {item : Nat → Counted Metadata.Value} (h : ∀ type, Answers (item type) (Reader.value type))
    (type : Nat) : Answers (valueWith item type) (Reader.value type) := by
  rw [Reader.value_eq, valueWith]
  refine .note _ ?_
  split
  · exact answers_string.bind fun _ => answers_pure _
  split
  · refine (answers_lift _).bind fun itemType => (answers_lift _).bind fun n => ?_
    split
    · exact answers_lift _
    · exact ((h itemType).repeated n).bind fun _ => answers_pure _
  · exact answers_lift _

theorem answers_value (type : Nat) : Answers (value type) (Reader.value type) := fun s => by
  rw [value]
  refine answers_valueWith (fun itemType t => ?_) type s
  split
  · exact answers_value itemType t
  · rfl
termination_by s => s.length

theorem answers_pair : Answers pair Reader.pair :=
  answers_string.bind fun _ => .note _ ((answers_lift _).bind fun type => (answers_value type).bind fun _ =>
    answers_pure _)

theorem answers_tensor (total : Nat) : Answers (tensor total) (Reader.tensor total) := by
  refine answers_string.bind fun name => (answers_lift _).bind fun n => ?_
  split
  · exact answers_lift _
  refine ((answers_lift _).repeated n).bind fun dims => (answers_lift _).bind fun id => ?_
  cases ElementType.ofId? id with
  | none => exact answers_lift _
  | some type =>
    refine (answers_lift _).bind fun offset => ?_
    cases totalWith total dims with
    | none => exact answers_lift _
    | some total => exact .note _ (answers_pure _)

theorem answers_tensors : ∀ n total, Answers (tensors n total) (Reader.tensors n total)
  | 0, _ => answers_pure _
  | n + 1, total => .note _ ((answers_tensor total).bind fun p => (answers_tensors n p.2).bind fun _ => answers_pure _)

theorem answers_header : Answers header Reader.header := by
  refine (answers_lift _).bind fun word => ?_
  split
  · exact answers_lift _
  refine (answers_lift _).bind fun version => ?_
  split
  · exact answers_lift _
  exact (answers_lift _).bind fun tensorCount => (answers_lift _).bind fun pairCount =>
    (answers_pair.repeated pairCount).bind fun _ => (answers_tensors tensorCount 0).bind fun _ => answers_pure _

/-! ## Items have fewer bytes than their array -/

theorem bind_congr {g g' : Counted α} {k k' : α → Counted β} (hg : g s = g' s)
    (hk : ∀ a t w, g' s = (.ok (a, t), w) → k a t = k' a t) : (g >>= k) s = (g' >>= k') s := by
  rcases hgs : g' s with ⟨e | ⟨a, t⟩, w⟩
  · rw [bind_of_error hgs, bind_of_error (hg.trans hgs)]
  · rw [bind_of_ok hgs, bind_of_ok (hg.trans hgs), hk a t w hgs]

theorem repeated_congr {g g' : Counted α} (hrest : ∀ {s t a w}, g' s = (.ok (a, t), w) → t.length ≤ s.length) :
    ∀ {n : Nat} {s : Bytes}, (∀ t : Bytes, t.length ≤ s.length → g t = g' t) → repeated g n s = repeated g' n s
  | 0, _, _ => rfl
  | n + 1, s, h => bind_congr rfl fun _ _ _ hnote => by
    cases hnote
    refine bind_congr (h s (Nat.le_refl _)) fun a t w ha => bind_congr ?_ fun _ _ _ _ => rfl
    exact repeated_congr hrest fun u hu => h u (Nat.le_trans hu (hrest ha))

theorem length_le_of_value {type : Nat} {v : Metadata.Value} (h : value type s = (.ok (v, t), w)) :
    t.length ≤ s.length :=
  (Reader.prefixAt_value type s).length_le (by rw [← answers_value type s, h])

/-- **The work on a value** is that on its items, whatever their number. -/
theorem value_eq (type : Nat) : value type = valueWith value type := by
  funext s
  rw [value]
  refine bind_congr rfl fun _ _ _ hnote => ?_
  cases hnote
  split
  · rfl
  split
  · refine bind_congr rfl fun itemType t _ ht => bind_congr rfl fun n u _ hu => ?_
    have hword := Reader.length_of_word32 (Prod.mk.inj ht).1
    have hcount := Reader.length_of_word64 (Prod.mk.inj hu).1
    split
    · rfl
    · refine bind_congr (repeated_congr length_le_of_value fun v hv => ?_) fun _ _ _ _ => rfl
      exact if_pos (by omega)
  · rfl

/-! ## What the work comes to -/

/-- **What was read is paid for by its bytes**: they are no fewer than the rounds, with some to spare, and no fewer than
all that was built. -/
structure Paid (spare values keys tensors : Nat) (s t : Bytes) (w : Work) : Prop where
  rounds_le : w.rounds + spare + t.length ≤ s.length
  built_le : w.values + w.keys + w.tensors + w.text + t.length ≤ s.length
  values_eq : w.values = values
  keys_eq : w.keys = keys
  tensors_eq : w.tensors = tensors

theorem Paid.append {n n' v v' k k' m m' : Nat} {w' : Work} (h : Paid n v k m s t w) (h' : Paid n' v' k' m' t u w') :
    Paid (n + n') (v + v') (k + k') (m + m') s u (w + w') := by
  have hrounds := h.rounds_le
  have hrounds' := h'.rounds_le
  have hbuilt := h.built_le
  have hbuilt' := h'.built_le
  exact ⟨by simp only [Work.add_rounds]; omega,
    by simp only [Work.add_values, Work.add_keys, Work.add_tensors, Work.add_text]; omega,
    congrArg₂ (· + ·) h.values_eq h'.values_eq, congrArg₂ (· + ·) h.keys_eq h'.keys_eq,
    congrArg₂ (· + ·) h.tensors_eq h'.tensors_eq⟩

/-- One more round uses up what there is to spare. -/
theorem Paid.round {n v k m : Nat} (h : Paid (n + 1) v k m s t w) : Paid n v k m s t ({ rounds := 1 } + w) := by
  have hrounds := h.rounds_le
  have hbuilt := h.built_le
  exact ⟨by simp; omega, by simpa using hbuilt, by simp [h.values_eq], by simp [h.keys_eq], by simp [h.tensors_eq]⟩

/-- **Work on some bytes**: what was read is paid for, and where that fails there were no more rounds than bytes, but for
some that are `owed`. -/
def Fair (spare owed : Nat) (values keys tensors : α → Nat) (s : Bytes) (w : Work) : Except Error (α × Bytes) → Prop
  | .ok (a, t) => Paid spare (values a) (keys a) (tensors a) s t w
  | .error _ => w.rounds ≤ s.length + owed

theorem of_string_bind {k : String → Counted α} (h : (string >>= k) s = (x, w)) : (∃ e, x = .error e ∧ w = {}) ∨
    ∃ text t n w₁, k text t = (x, w₁) ∧ w = { text := n } + w₁ ∧ s.length = t.length + n + 8 := by
  obtain ⟨e, hs, rfl⟩ | ⟨text, t, w₁, w₂, hs, hk, rfl⟩ := of_bind h
  · refine .inl ⟨e, rfl, ?_⟩
    obtain ⟨e', -, -, rfl⟩ | ⟨n, u, -, hread⟩ := of_lift_bind hs
    · rfl
    split at hread
    · cases hread
      rfl
    obtain ⟨e', -, -, rfl⟩ | ⟨b, r, -, hnoted⟩ := of_lift_bind hread
    · rfl
    · obtain ⟨w₁, hend, -⟩ := of_note_bind hnoted
      cases hend
  · obtain ⟨e, -, herror, -⟩ | ⟨n, u, hn, hread⟩ := of_lift_bind hs
    · cases herror
    have hcount := Reader.length_of_word64 hn
    split at hread
    · cases hread
    obtain ⟨e, -, herror, -⟩ | ⟨b, r, hb, hnoted⟩ := of_lift_bind hread
    · cases herror
    obtain ⟨w₃, hend, rfl⟩ := of_note_bind hnoted
    cases hend
    obtain ⟨rfl, -⟩ := Reader.field_eq_ok_iff.1 hb
    refine .inr ⟨_, t, b.length, w₂, hk, by ext <;> simp, ?_⟩
    rw [hcount, List.length_append]
    omega

/-- **A loop pays for its rounds** if each of them takes a byte; one that fails owes no more than its last round. -/
theorem fair_repeated {g : Counted α} {values keys tensors : α → Nat} : ∀ {n : Nat} {s : Bytes} {w : Work}
    {x : Except Error (List α × Bytes)},
    (∀ {t : Bytes} {x w}, t.length ≤ s.length → g t = (x, w) → Fair 1 0 values keys tensors t w x) →
    repeated g n s = (x, w) →
      Fair 0 1 (fun l => (l.map values).sum) (fun l => (l.map keys).sum) (fun l => (l.map tensors).sum) s w x
  | 0, s, w, x, _, h => by
    cases h
    exact ⟨by simp, by simp, rfl, rfl, rfl⟩
  | n + 1, s, w, x, hg, h => by
    obtain ⟨w₁, hround, rfl⟩ := of_note_bind h
    obtain ⟨e, ha, rfl⟩ | ⟨a, t, w₂, w₃, ha, hrest, rfl⟩ := of_bind hround
    · have hround : w₁.rounds ≤ s.length + 0 := hg (Nat.le_refl _) ha
      simp only [Fair, Work.add_rounds]
      omega
    -- the byte to spare pays for the round that was noted before it
    have hpaid : Paid 1 (values a) (keys a) (tensors a) s t w₂ := hg (Nat.le_refl _) ha
    have hle := hpaid.rounds_le
    obtain ⟨e, hlater, rfl⟩ | ⟨rest, u, w₄, w₅, hlater, hend, rfl⟩ := of_bind hrest
    · have hrounds : w₃.rounds ≤ t.length + 1 := fair_repeated (fun hu => hg (by omega)) hlater
      simp only [Fair, Work.add_rounds]
      omega
    · cases hend
      have hpaid' : Paid 0 (rest.map values).sum (rest.map keys).sum (rest.map tensors).sum t u w₄ :=
        fair_repeated (fun hu => hg (by omega)) hlater
      exact (hpaid.append hpaid').round

theorem fair_word64 {x : Except Error (Nat × Bytes)} (h : lift Reader.word64 s = (x, w)) :
    Fair 1 0 (fun _ => 0) (fun _ => 0) (fun _ => 0) s w x := by
  obtain ⟨rfl, rfl⟩ := Prod.mk.inj h
  cases hword : Reader.word64 s with
  | error e => exact Nat.zero_le _
  | ok p =>
    have hlength := Reader.length_of_word64 hword
    exact ⟨by simp; omega, by simp; omega, rfl, rfl, rfl⟩

/-- A value of fixed width takes a byte at least. -/
theorem of_scalar {type : Nat} {v : Metadata.Value} (h : Reader.scalar type s = .ok (v, t)) :
    t.length < s.length ∧ v.count = 1 := by
  rw [Reader.scalar] at h
  cases htype : scalar? type with
  | none =>
    rw [htype] at h
    cases h
  | some p =>
    obtain ⟨width, make⟩ := p
    rw [htype] at h
    obtain ⟨b, r, hb, h⟩ := Reader.bind_eq_ok.1 h
    cases h
    obtain ⟨rfl, hlength⟩ := Reader.field_eq_ok_iff.1 hb
    refine ⟨by rw [List.length_append]; omega, ?_⟩
    cases hv : make b with
    | array items => exact absurd hv (Reader.scalar_ne_array htype b items)
    | _ => rfl

theorem fair_value {type : Nat} {s : Bytes} {w : Work} {x : Except Error (Metadata.Value × Bytes)}
    (h : value type s = (x, w)) : Fair 1 0 Metadata.Value.count (fun _ => 0) (fun _ => 0) s w x := by
  rw [value_eq] at h
  obtain ⟨w₁, hread, rfl⟩ := of_note_bind h
  split at hread
  · obtain ⟨e, rfl, rfl⟩ | ⟨text, t, n, w₂, hend, rfl, hlength⟩ := of_string_bind hread
    · exact Nat.zero_le _
    · cases hend
      exact ⟨by simp; omega, by simp; omega, rfl, rfl, rfl⟩
  split at hread
  · obtain ⟨e, -, rfl, rfl⟩ | ⟨itemType, r, hword, hread⟩ := of_lift_bind hread
    · exact Nat.zero_le _
    obtain ⟨e, -, rfl, rfl⟩ | ⟨n, t, hcount, hread⟩ := of_lift_bind hread
    · exact Nat.zero_le _
    have hfront := Reader.length_of_word32 hword
    have hrest := Reader.length_of_word64 hcount
    split at hread
    · cases hread
      exact Nat.zero_le _
    -- the type and the length of an array pay for the array itself and for a round that fails
    have hitem : ∀ {u : Bytes} {x w}, u.length ≤ t.length → value itemType u = (x, w) →
        Fair 1 0 Metadata.Value.count (fun _ => 0) (fun _ => 0) u w x := fun _ h => fair_value h
    obtain ⟨e, hitems, rfl⟩ | ⟨items, u, w₂, w₃, hitems, hend, rfl⟩ := of_bind hread
    · have hrounds : w₁.rounds ≤ t.length + 1 := fair_repeated hitem hitems
      simp only [Fair, Work.add_rounds]
      omega
    · cases hend
      have hpaid : Paid 0 (items.map Metadata.Value.count).sum (items.map fun _ => 0).sum (items.map fun _ => 0).sum
        t u w₂ := fair_repeated hitem hitems
      have hfront : Paid 1 1 0 0 s t { values := 1 } := ⟨by simp; omega, by simp; omega, rfl, rfl, rfl⟩
      simpa [Fair, Metadata.Value.count_array, Nat.add_comm] using hfront.append hpaid
  · obtain ⟨rfl, rfl⟩ := Prod.mk.inj hread
    cases hscalar : Reader.scalar type s with
    | error e => exact Nat.zero_le _
    | ok p =>
      obtain ⟨hlength, hcount⟩ := of_scalar hscalar
      exact ⟨by simp; omega, by simp; omega, hcount.symm, rfl, rfl⟩
termination_by s.length

theorem fair_pair {x : Except Error ((String × Metadata.Value) × Bytes)} (h : pair s = (x, w)) :
    Fair 1 0 (fun p => p.2.count) (fun _ => 1) (fun _ => 0) s w x := by
  obtain ⟨e, rfl, rfl⟩ | ⟨key, t, n, w₁, hread, rfl, hlength⟩ := of_string_bind h
  · exact Nat.zero_le _
  obtain ⟨w₃, hnoted, rfl⟩ := of_note_bind hread
  obtain ⟨e, -, rfl, rfl⟩ | ⟨type, u, hword, hvalue⟩ := of_lift_bind hnoted
  · exact Nat.zero_le _
  have hfront := Reader.length_of_word32 hword
  obtain ⟨e, hv, rfl⟩ | ⟨v, r, w₄, w₅, hv, hend, rfl⟩ := of_bind hvalue
  · have hrounds : w₃.rounds ≤ u.length + 0 := fair_value hv
    simp only [Fair, Work.add_rounds]
    omega
  · cases hend
    have hpaid : Paid 1 v.count 0 0 u r w₄ := fair_value hv
    have hkey : Paid 0 0 0 0 s t { text := n } := ⟨by simp; omega, by simp; omega, rfl, rfl, rfl⟩
    have htype : Paid 0 0 1 0 t u { keys := 1 } := ⟨by simp; omega, by simp; omega, rfl, rfl, rfl⟩
    simpa [Fair] using hkey.append (htype.append hpaid)

theorem fair_place {total : Nat} {name : String} {dims : List Nat} {x : Except Error ((TensorInfo × Nat) × Bytes)}
    (h : place total name dims s = (x, w)) : Fair 1 0 (fun _ => 0) (fun _ => 0) (fun _ => 1) s w x := by
  obtain ⟨e, -, rfl, rfl⟩ | ⟨id, t, hid, hread⟩ := of_lift_bind h
  · exact Nat.zero_le _
  have hfront := Reader.length_of_word32 hid
  cases htype : ElementType.ofId? id with
  | none =>
    rw [htype] at hread
    cases hread
    exact Nat.zero_le _
  | some type =>
    rw [htype] at hread
    obtain ⟨e, -, rfl, rfl⟩ | ⟨offset, u, hoffset, hplaced⟩ := of_lift_bind hread
    · exact Nat.zero_le _
    have hrest := Reader.length_of_word64 hoffset
    cases htotal : totalWith total dims with
    | none =>
      rw [htotal] at hplaced
      cases hplaced
      exact Nat.zero_le _
    | some total' =>
      rw [htotal] at hplaced
      obtain ⟨w₁, hend, rfl⟩ := of_note_bind hplaced
      cases hend
      exact ⟨by simp; omega, by simp; omega, rfl, rfl, rfl⟩

theorem fair_tensor {total : Nat} {x : Except Error ((TensorInfo × Nat) × Bytes)} (h : tensor total s = (x, w)) :
    Fair 1 0 (fun _ => 0) (fun _ => 0) (fun _ => 1) s w x := by
  obtain ⟨e, rfl, rfl⟩ | ⟨name, t, k, w₁, hread, rfl, hlength⟩ := of_string_bind h
  · exact Nat.zero_le _
  obtain ⟨e, -, rfl, rfl⟩ | ⟨n, u, hword, hbody⟩ := of_lift_bind hread
  · exact Nat.zero_le _
  have hfront := Reader.length_of_word32 hword
  split at hbody
  · cases hbody
    exact Nat.zero_le _
  obtain ⟨e, hdims, rfl⟩ | ⟨dims, r, w₂, w₃, hdims, hplace, rfl⟩ := of_bind hbody
  · have hrounds : w₁.rounds ≤ u.length + 1 := fair_repeated (fun _ h => fair_word64 h) hdims
    simp only [Fair, Work.add_rounds]
    omega
  have hpaid : Paid 0 (dims.map fun _ => 0).sum (dims.map fun _ => 0).sum (dims.map fun _ => 0).sum u r w₂ :=
    fair_repeated (fun _ h => fair_word64 h) hdims
  have hfair := fair_place hplace
  cases x with
  | error e =>
    have hrounds := hpaid.rounds_le
    simp only [Fair, Work.add_rounds] at hfair ⊢
    omega
  | ok p =>
    have hfront : Paid 0 0 0 0 s u { text := k } := ⟨by simp; omega, by simp; omega, rfl, rfl, rfl⟩
    simpa [Fair] using hfront.append (hpaid.append hfair)

theorem fair_tensors : ∀ {n total : Nat} {s : Bytes} {w : Work} {x : Except Error (List TensorInfo × Bytes)},
    tensors n total s = (x, w) → Fair 0 1 (fun _ => 0) (fun _ => 0) List.length s w x
  | 0, _, _, _, _, h => by
    cases h
    exact ⟨by simp, by simp, rfl, rfl, rfl⟩
  | n + 1, total, s, w, x, h => by
    obtain ⟨w₁, hround, rfl⟩ := of_note_bind h
    obtain ⟨e, htensor, rfl⟩ | ⟨⟨info, total'⟩, t, w₂, w₃, htensor, hrest, rfl⟩ := of_bind hround
    · have hrounds : w₁.rounds ≤ s.length + 0 := fair_tensor htensor
      simp only [Fair, Work.add_rounds]
      omega
    have hpaid : Paid 1 0 0 1 s t w₂ := fair_tensor htensor
    have hle := hpaid.rounds_le
    obtain ⟨e, hlater, rfl⟩ | ⟨rest, u, w₄, w₅, hlater, hend, rfl⟩ := of_bind hrest
    · have hrounds : w₃.rounds ≤ t.length + 1 := fair_tensors hlater
      simp only [Fair, Work.add_rounds]
      omega
    · cases hend
      have hpaid' : Paid 0 0 0 rest.length t u w₄ := fair_tensors hlater
      simpa [Fair, Nat.add_comm] using (hpaid.append hpaid').round

theorem fair_header {x : Except Error ((Nat × List (String × Metadata.Value) × List TensorInfo) × Bytes)}
    (h : header s = (x, w)) :
    Fair 0 0 (fun p => (p.2.1.map (·.2.count)).sum) (·.2.1.length) (·.2.2.length) s w x := by
  obtain ⟨e, -, rfl, rfl⟩ | ⟨word, r₁, h₁, hread⟩ := of_lift_bind h
  · exact Nat.zero_le _
  split at hread
  · cases hread
    exact Nat.zero_le _
  obtain ⟨e, -, rfl, rfl⟩ | ⟨version, r₂, h₂, hread⟩ := of_lift_bind hread
  · exact Nat.zero_le _
  split at hread
  · cases hread
    exact Nat.zero_le _
  obtain ⟨e, -, rfl, rfl⟩ | ⟨tensorCount, r₃, h₃, hread⟩ := of_lift_bind hread
  · exact Nat.zero_le _
  obtain ⟨e, -, rfl, rfl⟩ | ⟨pairCount, r₄, h₄, hbody⟩ := of_lift_bind hread
  · exact Nat.zero_le _
  have hlead : s.length = r₄.length + 24 := by
    rw [Reader.length_of_word32 h₁, Reader.length_of_word32 h₂, Reader.length_of_word64 h₃,
      Reader.length_of_word64 h₄]
  obtain ⟨e, hpairs, rfl⟩ | ⟨pairs, t, w₁, w₂, hpairs, hrest, rfl⟩ := of_bind hbody
  · have hrounds : w.rounds ≤ r₄.length + 1 := fair_repeated (fun _ h => fair_pair h) hpairs
    simp only [Fair]
    omega
  have hpaid : Paid 0 (pairs.map (·.2.count)).sum (pairs.map fun _ => 1).sum (pairs.map fun _ => 0).sum r₄ t w₁ :=
    fair_repeated (fun _ h => fair_pair h) hpairs
  have hle := hpaid.rounds_le
  obtain ⟨e, hinfos, rfl⟩ | ⟨infos, u, w₃, w₄, hinfos, hend, rfl⟩ := of_bind hrest
  · have hrounds : w₂.rounds ≤ t.length + 1 := fair_tensors hinfos
    simp only [Fair, Work.add_rounds]
    omega
  · cases hend
    have hpaid' : Paid 0 0 0 infos.length t u w₃ := fair_tensors hinfos
    have hfront : Paid 0 0 0 0 s r₄ {} := ⟨by simp; omega, by simp; omega, rfl, rfl, rfl⟩
    simpa [Fair] using hfront.append (hpaid.append hpaid')

end Counted

namespace Header

/-- **Reads a header and keeps account of it.** -/
def readCounted (file : Bytes) : Except Error (Header × Nat) × Work :=
  let (answer, work) := Counted.header file
  (answer.map fun ((version, pairs, tensors), r) =>
    let metadata := Metadata.empty.withPairs pairs
    let size := file.length - r.length
    ({ version, metadata, tensors, dataOffset := Word.roundUp metadata.alignment size }, size), work)

/-- **A header does no more than its bytes allow**, whatever its counts and its lengths say.  In any file, also in one
that is refused, the loops have no more rounds than there are bytes.  The values, the keys and the tensors that were
built, and the bytes of all strings, come to no more than the bytes of the header.  A round of a loop, over pairs,
tensors, items or dimensions, takes a byte at least, and so does the call for an item of an array. -/
theorem bounded_readCounted (file : Bytes) :
    (readCounted file).1 = read file ∧
    (readCounted file).2.rounds ≤ file.length ∧
    (∀ h size, read file = .ok (h, size) → ∃ pairs r, Reader.header file = .ok ((h.version, pairs, h.tensors), r) ∧
      size = file.length - r.length ∧ h.metadata = Metadata.empty.withPairs pairs ∧
      (readCounted file).2.values = (pairs.map (·.2.count)).sum ∧
      (readCounted file).2.keys = pairs.length ∧
      (readCounted file).2.tensors = h.tensors.length ∧
      (pairs.map (·.2.count)).sum + pairs.length + h.tensors.length + (readCounted file).2.text ≤ size ∧
      size ≤ file.length) ∧
    ∀ s r : Bytes, (∀ p, Reader.pair s = .ok (p, r) → r.length < s.length) ∧
      (∀ total info, Reader.tensor total s = .ok (info, r) → r.length < s.length) ∧
      (∀ type v, Reader.value type s = .ok (v, r) → r.length < s.length) ∧
      ∀ n, Reader.word64 s = .ok (n, r) → r.length < s.length := by
  rcases hcounted : Counted.header file with ⟨x, w⟩
  have hanswer : x = Reader.header file := by rw [← Counted.answers_header, hcounted]
  have hwork : (readCounted file).2 = w := by rw [readCounted, hcounted]
  have hread : (readCounted file).1 = read file := by
    rw [Reader.read_eq, ← hanswer, readCounted, hcounted]
  have hfair := Counted.fair_header hcounted
  refine ⟨hread, ?_, fun h size hok => ?_, fun s r => ⟨fun p h => ?_, fun total info h => ?_, fun type v h => ?_,
    fun n h => ?_⟩⟩
  · rw [hwork]
    cases x with
    | error e => exact hfair
    | ok p =>
      have hle := hfair.rounds_le
      omega
  · obtain ⟨pairs, r, hheader, hmetadata, rfl, -⟩ := Reader.exists_of_read hok
    obtain rfl := hanswer.trans hheader
    have hbuilt := hfair.built_le
    have hvalues : w.values = (pairs.map (·.2.count)).sum := hfair.values_eq
    have hkeys : w.keys = pairs.length := hfair.keys_eq
    have htensors : w.tensors = h.tensors.length := hfair.tensors_eq
    rw [hwork]
    exact ⟨pairs, r, hheader, rfl, hmetadata, hvalues, hkeys, htensors, by omega, by omega⟩
  · exact Reader.length_lt_of_plain ((Reader.plain_pair s).trans h)
  · exact Reader.length_lt_of_plain ((Reader.plain_tensor total s).trans h)
  · exact Reader.length_lt_of_plain ((Reader.plain_value type s).trans h)
  · exact Reader.length_lt_of_plain ((Reader.plain_word64 s).trans h)

end Header
end CausalLM.Container
