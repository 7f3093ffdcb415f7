import CausalLM.Proofs.Container.Prefix
/-!
# Proofs.Container.Stack — reading with room for so many calls

An array may hold arrays, and one inside another is read by a call inside a call.  Here the readers of a header run on
a stack with room for so many calls of the one that reads a value: they give the answer of the reader, or they run out
of frames (`Header.parseWithin_eq`, `Probe.ofFrontWithin_eq`), and they run out among the pairs
(`Stacked.header_eq_none_iff`, `Probe.ofFrontWithin_eq_none_iff`).
-/
namespace CausalLM.Container

/-- **A reader on a stack**: what it reads and the bytes behind it; nothing where it runs out of frames. -/
def Stacked (α : Type) := Bytes → Option (Except Error (α × Bytes))

namespace Stacked

variable {α : Type}

instance : Monad Stacked where
  pure a := fun s => some (.ok (a, s))
  bind g k := fun s => match g s with
    | none => none
    | some (.error e) => some (.error e)
    | some (.ok (a, r)) => k a r

def overflow : Stacked α := fun _ => none

/-- A reader that reads no value. -/
def lift (f : Reader α) : Stacked α := fun s => some (f s)

def repeated (g : Stacked α) : Nat → Stacked (List α)
  | 0 => pure []
  | n + 1 => do
    let a ← g
    let rest ← repeated g n
    return a :: rest

section
variable (item : Nat → Stacked Metadata.Value)

/-- **One call**: a value of the numbered type, whose items are read by other calls. -/
def call (type : Nat) : Stacked Metadata.Value :=
  if type = stringType then lift (do return .string (← Reader.string))
  else if type = arrayType then do
    let itemType ← lift Reader.word32
    let n ← lift Reader.word64
    if maxArrayLength < n then lift (Reader.refuse ("array too large: " ++ toString n ++ " elements"))
    else do return .array (← repeated (item itemType) n)
  else lift (Reader.scalar type)

def pair : Stacked (String × Metadata.Value) := do
  let key ← lift Reader.string
  let type ← lift Reader.word32
  let v ← item type
  return (key, v)

def header : Stacked (Nat × List (String × Metadata.Value) × List TensorInfo) := do
  let word ← lift Reader.word32
  if word ≠ magic then
    lift (Reader.refuse
      ("invalid gguf magic: expected " ++ Header.showMagic magic ++ ", got " ++ Header.showMagic word))
  else do
    let version ← lift Reader.word32
    if !Header.supportedVersion version then lift (Reader.refuse ("unsupported gguf version " ++ toString version))
    else do
      let tensorCount ← lift Reader.word64
      let pairCount ← lift Reader.word64
      let pairs ← repeated (pair item) pairCount
      let infos ← lift (Reader.tensors tensorCount 0)
      return (version, pairs, infos)

/-- The first architecture key among so many pairs, as a look at a front finds it. -/
def scanPairs : Nat → Bytes → Option (Option String)
  | 0, _ => some none
  | n + 1, s => match pair item s with
    | none => none
    | some (.error _) => some none
    | some (.ok ((key, value), r)) =>
      if key = "general.architecture" then some value.asString else scanPairs n r

end

/-- **A value read in so many calls**, one inside the other. -/
def value : Nat → Nat → Stacked Metadata.Value
  | 0, _ => overflow
  | frames + 1, type => call (value frames) type

end Stacked

/-- **The header of a file, parsed in so many frames.** -/
def Header.parseWithin (frames : Nat) (file : Bytes) : Option (Except Error Header) :=
  (Stacked.header (Stacked.value frames) file).map (Except.map fun ((version, pairs, tensors), r) =>
    let metadata := Metadata.empty.withPairs pairs
    { version, metadata, tensors, dataOffset := Word.roundUp metadata.alignment (file.length - r.length) })

/-- **A look at the bytes given, in so many frames.**  Without its four words a front has no pairs. -/
def Probe.ofFrontWithin (frames : Nat) (front : Bytes) : Option Probe :=
  match Reader.lead front with
  | .error _ => some (ofFront front)
  | .ok ((word, version, _, n), r) =>
    (if word = Container.magic then Stacked.scanPairs (Stacked.value frames) n r else some none).map
      fun architecture => ⟨word, version, architecture⟩

namespace Stacked

variable {α β : Type} {s r : Bytes} {a : α} {e : Error}

/-! ## The answer, or none -/

theorem bind_of_none {g : Stacked α} {k : α → Stacked β} (h : g s = none) : (g >>= k) s = none := by
  simp only [bind, h]

theorem bind_of_error {g : Stacked α} {k : α → Stacked β} (h : g s = some (.error e)) :
    (g >>= k) s = some (.error e) := by
  simp only [bind, h]

theorem bind_of_ok {g : Stacked α} {k : α → Stacked β} (h : g s = some (.ok (a, r))) : (g >>= k) s = k a r := by
  simp only [bind, h]

theorem bind_eq_none {g : Stacked α} {k : α → Stacked β} :
    (g >>= k) s = none ↔ g s = none ∨ ∃ a r, g s = some (.ok (a, r)) ∧ k a r = none := by
  cases h : g s with
  | none => simp [bind_of_none h]
  | some x => cases x with
    | error e => simp [bind_of_error h]
    | ok p => simp [bind_of_ok h, Prod.ext_iff]

theorem lift_bind_eq_none {f : Reader α} {k : α → Stacked β} :
    (lift f >>= k) s = none ↔ ∃ a r, f s = .ok (a, r) ∧ k a r = none := by
  rw [bind_eq_none, lift]
  simp

theorem lift_bind (f : Reader α) (k : α → Reader β) : lift (f >>= k) = lift f >>= fun a => lift (k a) := by
  funext s
  cases h : f s with
  | error e => rw [lift, Reader.bind_of_error h, bind_of_error (congrArg some h)]
  | ok p => rw [lift, Reader.bind_of_ok h, bind_of_ok (congrArg some h), lift]

theorem lift_pure (a : α) : lift (pure a) = pure a := rfl

theorem lift_repeated (f : Reader α) : ∀ n, lift (Reader.repeated f n) = repeated (lift f) n
  | 0 => rfl
  | n + 1 => by simp only [Reader.repeated, repeated, lift_bind, lift_pure, lift_repeated f n]

/-- **The answers of `g` are those of `g'`**, as far as its frames go. -/
def Agrees (g g' : Stacked α) : Prop := ∀ s, g s = none ∨ g s = g' s

theorem Agrees.refl (g : Stacked α) : Agrees g g := fun _ => .inr rfl

theorem Agrees.bind {g g' : Stacked α} {k k' : α → Stacked β} (hg : Agrees g g') (hk : ∀ a, Agrees (k a) (k' a)) :
    Agrees (g >>= k) (g' >>= k') := by
  intro s
  obtain hnone | hsame := hg s
  · exact .inl (bind_of_none hnone)
  cases h : g s with
  | none => exact .inl (bind_of_none h)
  | some x => cases x with
    | error e => exact .inr (by rw [bind_of_error h, bind_of_error (hsame.symm.trans h)])
    | ok p =>
      -- with the same answer so far both go on from the same bytes
      rw [bind_of_ok h, bind_of_ok (hsame.symm.trans h)]
      exact hk p.1 p.2

theorem Agrees.repeated {g g' : Stacked α} (h : Agrees g g') : ∀ n, Agrees (repeated g n) (repeated g' n)
  | 0 => .refl _
  | n + 1 => h.bind fun _ => (Agrees.repeated h n).bind fun _ => .refl _

section
variable {item item' : Nat → Stacked Metadata.Value} (h : ∀ type, Agrees (item type) (item' type))
include h

theorem Agrees.call (type : Nat) : Agrees (call item type) (call item' type) := by
  unfold Stacked.call
  split
  · exact .refl _
  split
  · refine (Agrees.refl _).bind fun itemType => (Agrees.refl _).bind fun n => ?_
    split
    · exact .refl _
    · exact ((h itemType).repeated n).bind fun _ => .refl _
  · exact .refl _

theorem Agrees.pair : Agrees (pair item) (pair item') :=
  (Agrees.refl _).bind fun _ => (Agrees.refl _).bind fun type => (h type).bind fun _ => .refl _

theorem Agrees.header : Agrees (header item) (header item') := by
  refine (Agrees.refl _).bind fun word => ?_
  split
  · exact .refl _
  refine (Agrees.refl _).bind fun version => ?_
  split
  · exact .refl _
  exact (Agrees.refl _).bind fun _ => (Agrees.refl _).bind fun n => ((Agrees.pair h).repeated n).bind fun _ =>
    .refl _

theorem Agrees.scanPairs : ∀ (n : Nat) (s : Bytes),
    scanPairs item n s = none ∨ scanPairs item n s = scanPairs item' n s
  | 0, _ => .inr rfl
  | n + 1, s => by
    unfold Stacked.scanPairs
    obtain hnone | hsame := Agrees.pair h s
    · rw [hnone]
      exact .inl rfl
    rw [← hsame]
    split
    · exact .inl rfl
    · exact .inr rfl
    · split
      · exact .inr rfl
      · exact Agrees.scanPairs n _

end

/-! Where every value is read outright, the readers are those without a stack. -/

theorem call_lift (type : Nat) : call (fun type => lift (Reader.value type)) type = lift (Reader.value type) := by
  rw [Reader.value_eq, call]
  split
  · rfl
  split
  · simp only [Reader.array, lift_bind, ← lift_repeated]
    congr
    funext itemType
    congr
    funext n
    split
    · rfl
    · rw [lift_bind]
      rfl
  · rfl

theorem pair_lift : pair (fun type => lift (Reader.value type)) = lift Reader.pair := by
  simp only [pair, Reader.pair, lift_bind, lift_pure]

theorem header_lift : header (fun type => lift (Reader.value type)) = lift Reader.header := by
  simp only [header, Reader.header, lift_bind, pair_lift, ← lift_repeated]
  congr
  funext word
  split
  · rfl
  rw [lift_bind]
  congr
  funext version
  split
  · rfl
  · simp only [lift_bind, lift_pure]

theorem scanPairs_lift : ∀ (n : Nat) (s : Bytes),
    scanPairs (fun type => lift (Reader.value type)) n s = some (Probe.scanPairs n s)
  | 0, _ => rfl
  | n + 1, s => by
    rw [scanPairs, pair_lift, lift]
    cases hread : readPair s with
    | error e =>
      rw [Probe.scanPairs, hread, ← Reader.plain_pair, hread]
      rfl
    | ok p =>
      obtain ⟨⟨key, v⟩, r⟩ := p
      have hpair : Reader.pair s = .ok ((key, v), r.1) := by rw [← Reader.plain_pair, hread]; rfl
      rw [Probe.scanPairs_of_pair hpair, hpair]
      simp only
      split
      · rfl
      · exact scanPairs_lift n r.1

theorem agrees_value : ∀ frames type, Agrees (value frames type) (lift (Reader.value type))
  | 0, _ => fun _ => .inl rfl
  | frames + 1, type => by
    rw [← call_lift type]
    exact Agrees.call (agrees_value frames) type

/-- One more frame changes no answer. -/
theorem agrees_succ : ∀ frames type, Agrees (value frames type) (value (frames + 1) type)
  | 0, _ => fun _ => .inl rfl
  | frames + 1, type => Agrees.call (agrees_succ frames) type

theorem Agrees.reads {g : Stacked α} {f : Reader α} (h : Agrees g (lift f)) (hg : g s = some (.ok (a, r))) :
    f s = .ok (a, r) := by
  obtain hnone | hsame := h s
  · rw [hnone] at hg
    cases hg
  · rw [hsame] at hg
    exact Option.some.inj hg

/-! ## Running out -/

/-- A header runs out of frames among its pairs. -/
theorem header_eq_none_iff {item : Nat → Stacked Metadata.Value} : header item s = none ↔
    ∃ version tensorCount n r, Header.supportedVersion version = true ∧
      Reader.lead s = .ok ((magic, version, tensorCount, n), r) ∧ repeated (pair item) n r = none := by
  constructor
  · intro h
    obtain ⟨word, r₁, h₁, h⟩ := lift_bind_eq_none.1 h
    split at h
    · cases h
    rename_i hmagic
    obtain ⟨version, r₂, h₂, h⟩ := lift_bind_eq_none.1 h
    split at h
    · cases h
    rename_i hversion
    obtain ⟨tensorCount, r₃, h₃, h⟩ := lift_bind_eq_none.1 h
    obtain ⟨n, r₄, h₄, h⟩ := lift_bind_eq_none.1 h
    obtain h | ⟨pairs, t, -, h⟩ := bind_eq_none.1 h
    · refine ⟨version, tensorCount, n, r₄, by simpa using hversion, ?_, h⟩
      exact Reader.lead_eq_ok_iff.2 ⟨r₁, r₂, r₃, Decidable.not_not.1 hmagic ▸ h₁, h₂, h₃, h₄⟩
    · obtain ⟨infos, u, -, h⟩ := lift_bind_eq_none.1 h
      cases h
  · rintro ⟨version, tensorCount, n, r, hversion, hlead, h⟩
    obtain ⟨r₁, r₂, r₃, h₁, h₂, h₃, h₄⟩ := Reader.lead_eq_ok_iff.1 hlead
    rw [header, bind_of_ok (congrArg some h₁), if_neg (by simp), bind_of_ok (congrArg some h₂),
      if_neg (by simp [hversion]), bind_of_ok (congrArg some h₃), bind_of_ok (congrArg some h₄), bind_of_none h]

end Stacked

namespace Header

theorem parseWithin_eq_none_iff {frames : Nat} {file : Bytes} :
    parseWithin frames file = none ↔ Stacked.header (Stacked.value frames) file = none := Option.map_eq_none_iff

theorem parseWithin_eq (frames : Nat) (file : Bytes) :
    parseWithin frames file = none ∨ parseWithin frames file = some (parse file) := by
  rw [parseWithin_eq_none_iff]
  obtain h | h := Stacked.Agrees.header (Stacked.agrees_value frames) file
  · exact .inl h
  · right
    rw [parseWithin, h, Stacked.header_lift, Stacked.lift, parse, Reader.read_eq]
    cases Reader.header file <;> rfl

theorem parseWithin_of_succ {frames : Nat} {file : Bytes} (h : parseWithin (frames + 1) file = none) :
    parseWithin frames file = none := by
  rw [parseWithin_eq_none_iff] at h ⊢
  obtain h' | h' := Stacked.Agrees.header (Stacked.agrees_succ frames) file
  · exact h'
  · rw [h', h]

end Header

namespace Probe

variable {frames : Nat} {s : Bytes}

theorem ofFrontWithin_eq (frames : Nat) (front : Bytes) :
    ofFrontWithin frames front = none ∨ ofFrontWithin frames front = some (ofFront front) := by
  unfold ofFrontWithin
  split
  · exact .inr rfl
  · rename_i word version tensorCount n r hlead
    rw [ofFront_of_lead hlead]
    split
    · obtain h | h := Stacked.Agrees.scanPairs (Stacked.agrees_value frames) n r
      · exact .inl (by rw [h]; rfl)
      · exact .inr (by rw [h, Stacked.scanPairs_lift]; rfl)
    · exact .inr rfl

/-- A look at a front runs out of frames among the pairs. -/
theorem ofFrontWithin_eq_none_iff : ofFrontWithin frames s = none ↔
    ∃ version tensorCount n r, Reader.lead s = .ok ((Container.magic, version, tensorCount, n), r) ∧
      Stacked.scanPairs (Stacked.value frames) n r = none := by
  constructor
  · intro h
    unfold ofFrontWithin at h
    split at h
    · cases h
    rename_i word version tensorCount n r hlead
    rw [Option.map_eq_none_iff] at h
    split at h
    · rename_i hmagic
      exact ⟨version, tensorCount, n, r, hmagic ▸ hlead, h⟩
    · cases h
  · rintro ⟨version, tensorCount, n, r, hlead, hscan⟩
    rw [ofFrontWithin, hlead]
    dsimp only
    rw [if_pos rfl, hscan]
    rfl

theorem ofFrontWithin_of_succ (h : ofFrontWithin (frames + 1) s = none) : ofFrontWithin frames s = none := by
  rw [ofFrontWithin_eq_none_iff] at h ⊢
  obtain ⟨version, tensorCount, n, r, hlead, hscan⟩ := h
  refine ⟨version, tensorCount, n, r, hlead, ?_⟩
  obtain h' | h' := Stacked.Agrees.scanPairs (Stacked.agrees_succ frames) n r
  · exact h'
  · rw [h', hscan]

end Probe
end CausalLM.Container
