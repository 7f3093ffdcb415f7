import CausalLM.Proofs.Container.Stack
/-!
# Proofs.Container.Nesting — how deep a header is read

A value that is read takes as many calls, one inside the other, as it is deep (`Stacked.value_eq_none_iff`).  Two words
stand in front of the items of an array, and nothing else keeps arrays from nesting: files below `12 * n + 36` bytes
are read in `n` frames, and some file of that many bytes is not (`Header.framesFor_parse`).
-/
namespace CausalLM.Container

/-! ## The depth of a value -/

namespace Metadata.Value

mutual

/-- **How deep a value is**: an array is one deeper than its deepest item, and all else has depth one. -/
def depth : Value → Nat
  | array items => depths items + 1
  | _ => 1

def depths : List Value → Nat
  | [] => 0
  | v :: vs => max v.depth (depths vs)

end

theorem lt_depths_iff {n : Nat} : ∀ {items : List Value}, n < depths items ↔ ∃ v ∈ items, n < v.depth
  | [] => by simp [depths]
  | v :: vs => by rw [depths, lt_max_iff, lt_depths_iff, List.exists_mem_cons_iff]

theorem depth_of_ne_array {v : Value} (h : ∀ items, v ≠ array items) : v.depth = 1 := by
  cases v with
  | array items => exact absurd rfl (h items)
  | _ => rfl

end Metadata.Value

/-! ## The bytes that are read -/

namespace Reader

variable {s r : Bytes} {n : Nat}

theorem length_of_word32 (h : word32 s = .ok (n, r)) : s.length = r.length + 4 := by
  obtain ⟨b, rfl, hb, -⟩ := map_field_eq_ok_iff.1 h
  rw [List.length_append, hb, Nat.add_comm]

theorem length_of_word64 (h : word64 s = .ok (n, r)) : s.length = r.length + 8 := by
  obtain ⟨b, rfl, hb, -⟩ := map_field_eq_ok_iff.1 h
  rw [List.length_append, hb, Nat.add_comm]

theorem length_of_lead {p : Nat × Nat × Nat × Nat} (h : lead s = .ok (p, r)) : s.length = r.length + 24 := by
  obtain ⟨r₁, r₂, r₃, h₁, h₂, h₃, h₄⟩ := lead_eq_ok_iff.1 h
  rw [length_of_word32 h₁, length_of_word32 h₂, length_of_word64 h₃, length_of_word64 h₄]

theorem length_of_string {text : String} (h : string s = .ok (text, r)) : r.length + 8 ≤ s.length := by
  obtain ⟨n, t, hn, h⟩ := bind_eq_ok.1 h
  split at h
  · cases h
  obtain ⟨b, u, hb, h⟩ := bind_eq_ok.1 h
  cases h
  obtain ⟨rfl, -⟩ := field_eq_ok_iff.1 hb
  rw [length_of_word64 hn, List.length_append]
  omega

end Reader

namespace Stacked

variable {α : Type} {s r : Bytes}

/-! ## A value takes as many frames as it is deep -/

theorem repeated_eq_none_iff {g : Stacked α} {f : Reader α} {p : α → Prop} (hagrees : Agrees g (lift f))
    (hg : ∀ {s a r}, f s = .ok (a, r) → (g s = none ↔ p a)) : ∀ {n : Nat} {s r : Bytes} {l : List α},
    Reader.repeated f n s = .ok (l, r) → (repeated g n s = none ↔ ∃ a ∈ l, p a)
  | 0, s, r, l, h => by
    cases h
    simp [repeated, pure]
  | n + 1, s, r, l, h => by
    obtain ⟨a, t, ha, h⟩ := Reader.bind_eq_ok.1 h
    obtain ⟨rest, u, hrest, h⟩ := Reader.bind_eq_ok.1 h
    cases h
    rw [List.exists_mem_cons_iff, ← hg ha, ← repeated_eq_none_iff hagrees hg hrest]
    obtain hnone | hsame := hagrees s
    · rw [repeated, bind_of_none hnone]
      simp [hnone]
    · have hok : g s = some (.ok (a, t)) := by rw [hsame, lift, ha]
      rw [repeated, bind_of_ok hok, bind_eq_none, hok]
      simp [pure]

theorem depth_of_scalar {type : Nat} {v : Metadata.Value} (h : Reader.scalar type s = .ok (v, r)) : v.depth = 1 := by
  rw [Reader.scalar] at h
  cases htype : scalar? type with
  | none =>
    rw [htype] at h
    cases h
  | some p =>
    rw [htype] at h
    obtain ⟨b, t, -, h⟩ := Reader.bind_eq_ok.1 h
    cases h
    exact Metadata.Value.depth_of_ne_array (Reader.scalar_ne_array htype b)

/-- **A value is read in so many frames exactly if it is no deeper.** -/
theorem value_eq_none_iff : ∀ (frames : Nat) {type : Nat} {s r : Bytes} {v : Metadata.Value},
    Reader.value type s = .ok (v, r) → (value frames type s = none ↔ frames < v.depth)
  | 0, type, s, r, v, _ => by
    have hpos : 0 < v.depth := by cases v <;> simp [Metadata.Value.depth]
    simp [value, overflow, hpos]
  | frames + 1, type, s, r, v, h => by
    rw [Reader.value_eq] at h
    rw [value, call]
    by_cases hstring : type = stringType
    · rw [if_pos hstring] at h ⊢
      obtain ⟨text, t, -, h⟩ := Reader.bind_eq_ok.1 h
      cases h
      simp [lift, Metadata.Value.depth]
    rw [if_neg hstring] at h ⊢
    by_cases harray : type = arrayType
    · rw [if_pos harray] at h ⊢
      obtain ⟨itemType, t, hword, h⟩ := Reader.bind_eq_ok.1 h
      obtain ⟨n, u, hcount, h⟩ := Reader.bind_eq_ok.1 h
      split at h
      · cases h
      rename_i hlength
      obtain ⟨items, w, hitems, h⟩ := Reader.bind_eq_ok.1 h
      cases h
      -- the items have one frame less, and the array is one deeper than the deepest of them
      rw [bind_of_ok (congrArg some hword), bind_of_ok (congrArg some hcount), if_neg hlength, bind_eq_none,
        repeated_eq_none_iff (agrees_value frames itemType) (value_eq_none_iff frames) hitems,
        ← Metadata.Value.lt_depths_iff]
      simp [pure, Metadata.Value.depth]
    · rw [if_neg harray] at h ⊢
      rw [depth_of_scalar h]
      simp [lift]

/-! ## Files that are read in so many frames -/

theorem length_le_of_value {frames type : Nat} {v : Metadata.Value} (h : value frames type s = some (.ok (v, r))) :
    r.length ≤ s.length :=
  (Reader.prefixAt_value type s).length_le ((agrees_value frames type).reads h)

theorem exists_of_repeated {g : Stacked α} (hg : ∀ {s a r}, g s = some (.ok (a, r)) → r.length ≤ s.length) :
    ∀ {n : Nat} {s : Bytes}, repeated g n s = none → ∃ t : Bytes, t.length ≤ s.length ∧ g t = none
  | n + 1, s, h => by
    obtain h | ⟨a, r, ha, h⟩ := bind_eq_none.1 h
    · exact ⟨s, Nat.le_refl _, h⟩
    obtain h | ⟨rest, t, -, h⟩ := bind_eq_none.1 h
    · obtain ⟨t, hle, ht⟩ := exists_of_repeated hg h
      exact ⟨t, Nat.le_trans hle (hg ha), ht⟩
    · cases h

theorem le_of_value : ∀ {frames type : Nat} {s : Bytes}, value frames type s = none → 12 * frames ≤ s.length
  | 0, _, _, _ => Nat.zero_le _
  | frames + 1, type, s, h => by
    rw [value, call] at h
    split at h
    · cases h
    split at h
    · obtain ⟨itemType, r, hword, h⟩ := lift_bind_eq_none.1 h
      obtain ⟨n, t, hcount, h⟩ := lift_bind_eq_none.1 h
      split at h
      · cases h
      obtain h | ⟨items, u, -, h⟩ := bind_eq_none.1 h
      -- the call that finds no frame is one for an item, behind the two words of this array
      · obtain ⟨u, hle, hu⟩ := exists_of_repeated length_le_of_value h
        have hitem := le_of_value hu
        have hfront := Reader.length_of_word32 hword
        have hrest := Reader.length_of_word64 hcount
        omega
      · cases h
    · cases h

theorem le_of_pair {frames : Nat} (h : pair (value frames) s = none) : 12 * frames + 12 ≤ s.length := by
  obtain ⟨key, r, hkey, h⟩ := lift_bind_eq_none.1 h
  obtain ⟨type, t, htype, h⟩ := lift_bind_eq_none.1 h
  obtain h | ⟨v, u, -, h⟩ := bind_eq_none.1 h
  · have hvalue := le_of_value h
    have hfront := Reader.length_of_string hkey
    have hrest := Reader.length_of_word32 htype
    omega
  · cases h

theorem length_le_of_pair {frames : Nat} {p : String × Metadata.Value}
    (h : pair (value frames) s = some (.ok (p, r))) : r.length ≤ s.length := by
  have hagrees : Agrees (pair (value frames)) (lift Reader.pair) := by
    rw [← pair_lift]
    exact Agrees.pair (agrees_value frames)
  exact (Reader.prefixAt_pair s).length_le (hagrees.reads h)

theorem le_of_scanPairs {frames : Nat} : ∀ {n : Nat} {s : Bytes}, scanPairs (value frames) n s = none →
    12 * frames + 12 ≤ s.length
  | n + 1, s, h => by
    rw [scanPairs] at h
    split at h
    · exact le_of_pair ‹_›
    · cases h
    · split at h
      · cases h
      · exact Nat.le_trans (le_of_scanPairs h) (length_le_of_pair ‹_›)

end Stacked

theorem Header.le_of_parseWithin {frames : Nat} {file : Bytes} (h : parseWithin frames file = none) :
    12 * frames + 36 ≤ file.length := by
  obtain ⟨version, tensorCount, n, r, -, hlead, hpairs⟩ :=
    Stacked.header_eq_none_iff.1 (parseWithin_eq_none_iff.1 h)
  obtain ⟨t, hle, ht⟩ := Stacked.exists_of_repeated Stacked.length_le_of_pair hpairs
  have hpair := Stacked.le_of_pair ht
  have hfront := Reader.length_of_lead hlead
  omega

theorem Probe.le_of_ofFrontWithin {frames : Nat} {front : Bytes} (h : ofFrontWithin frames front = none) :
    12 * frames + 36 ≤ front.length := by
  obtain ⟨version, tensorCount, n, r, hlead, hscan⟩ := ofFrontWithin_eq_none_iff.1 h
  have hpairs := Stacked.le_of_scanPairs hscan
  have hfront := Reader.length_of_lead hlead
  omega

/-! ## Nested arrays -/

namespace Nested

/-- So many arrays, each the only item of the one before it. -/
def opening : Nat → Bytes
  | 0 => []
  | n + 1 => Bytes.ofNat 4 arrayType ++ (Bytes.ofNat 8 1 ++ opening n)

/-- The last array, which is empty. -/
def closing : Bytes := Bytes.ofNat 4 0 ++ Bytes.ofNat 8 0

/-- A file whose one value begins so. -/
def file (n : Nat) (rest : Bytes) : Bytes :=
  Bytes.ofNat 4 magic ++ (Bytes.ofNat 4 3 ++ (Bytes.ofNat 8 0 ++ (Bytes.ofNat 8 1 ++
    (Bytes.ofNat 8 0 ++ (Bytes.ofNat 4 arrayType ++ (opening n ++ rest))))))

theorem length_opening : ∀ n, (opening n).length = 12 * n
  | 0 => rfl
  | n + 1 => by
    simp only [opening, List.length_append, Bytes.length_ofNat, length_opening n]
    omega

theorem length_file (n : Nat) (rest : Bytes) : (file n rest).length = 12 * n + 36 + rest.length := by
  simp only [file, List.length_append, Bytes.length_ofNat, length_opening]
  omega

theorem word32_append {n : Nat} (h : n < 2 ^ 32) (r : Bytes) : Reader.word32 (Bytes.ofNat 4 n ++ r) = .ok (n, r) :=
  Reader.map_field_eq_ok_iff.2 ⟨_, rfl, Bytes.length_ofNat 4 n, Bytes.toNat_ofNat_of_lt h⟩

theorem word64_append {n : Nat} (h : n < 2 ^ 64) (r : Bytes) : Reader.word64 (Bytes.ofNat 8 n ++ r) = .ok (n, r) :=
  Reader.map_field_eq_ok_iff.2 ⟨_, rfl, Bytes.length_ofNat 8 n, Bytes.toNat_ofNat_of_lt h⟩

theorem string_append (r : Bytes) : Reader.string (Bytes.ofNat 8 0 ++ r) = .ok ("", r) := by
  rw [Reader.string, Reader.bind_of_ok (word64_append (by decide) r), if_neg (by decide),
    Reader.bind_of_ok (show Reader.field 0 r = .ok ([], r) from Reader.field_eq_ok_iff.2 ⟨rfl, rfl⟩),
    Utf8.toStringLossy, Utf8.lossy_nil]
  rfl

theorem value_opening : ∀ (n : Nat) (rest : Bytes), Stacked.value n arrayType (opening n ++ rest) = none
  | 0, _ => rfl
  | n + 1, rest => by
    rw [Stacked.value, Stacked.call, if_neg (by decide), if_pos rfl, opening, List.append_assoc, List.append_assoc,
      Stacked.lift_bind_eq_none]
    refine ⟨_, _, word32_append (by decide) _, ?_⟩
    rw [Stacked.lift_bind_eq_none]
    refine ⟨_, _, word64_append (by decide) _, ?_⟩
    rw [if_neg (by decide)]
    exact Stacked.bind_of_none (Stacked.bind_of_none (value_opening n rest))

/-- The value of nested arrays that are closed. -/
def nest : Nat → Metadata.Value
  | 0 => .array []
  | n + 1 => .array [nest n]

theorem depth_nest : ∀ n, (nest n).depth = n + 1
  | 0 => rfl
  | n + 1 => by simp only [nest, Metadata.Value.depth, Metadata.Value.depths, depth_nest n, Nat.max_zero]

theorem value_closed : ∀ n, Reader.value arrayType (opening n ++ closing) = .ok (nest n, [])
  | 0 => by
    rw [Reader.value_eq, if_neg (by decide), if_pos rfl, opening, List.nil_append, closing, Reader.array,
      Reader.bind_of_ok (word32_append (by decide) _)]
    exact Reader.bind_of_ok (word64_append (by decide) [])
  | n + 1 => by
    rw [Reader.value_eq, if_neg (by decide), if_pos rfl, opening, List.append_assoc, List.append_assoc, Reader.array,
      Reader.bind_of_ok (word32_append (by decide) _), Reader.bind_of_ok (word64_append (by decide) _),
      if_neg (by decide), Reader.repeated, bind_assoc, Reader.bind_of_ok (value_closed n)]
    rfl

theorem lead_file (n : Nat) (rest : Bytes) : Reader.lead (file n rest) =
    .ok ((magic, 3, 0, 1), Bytes.ofNat 8 0 ++ (Bytes.ofNat 4 arrayType ++ (opening n ++ rest))) :=
  Reader.lead_eq_ok_iff.2 ⟨_, _, _, word32_append (by decide) _, word32_append (by decide) _,
    word64_append (by decide) _, word64_append (by decide) _⟩

theorem pair_file (n : Nat) (rest : Bytes) : Stacked.pair (Stacked.value n)
    (Bytes.ofNat 8 0 ++ (Bytes.ofNat 4 arrayType ++ (opening n ++ rest))) = none := by
  rw [Stacked.pair, Stacked.lift_bind_eq_none]
  refine ⟨_, _, string_append _, ?_⟩
  rw [Stacked.lift_bind_eq_none]
  exact ⟨_, _, word32_append (by decide) _, Stacked.bind_of_none (value_opening n rest)⟩

theorem parseWithin_file (n : Nat) (rest : Bytes) : Header.parseWithin n (file n rest) = none :=
  Header.parseWithin_eq_none_iff.2 (Stacked.header_eq_none_iff.2
    ⟨3, 0, 1, _, rfl, lead_file n rest, Stacked.bind_of_none (pair_file n rest)⟩)

theorem ofFrontWithin_file (n : Nat) (rest : Bytes) : Probe.ofFrontWithin n (file n rest) = none := by
  refine Probe.ofFrontWithin_eq_none_iff.2 ⟨3, 0, 1, _, lead_file n rest, ?_⟩
  rw [Stacked.scanPairs, pair_file]

theorem header_closed (n : Nat) : Reader.header (file n closing) = .ok ((3, [("", nest n)], []), []) := by
  rw [Reader.header, file, Reader.bind_of_ok (word32_append (by decide) _), if_neg (by decide),
    Reader.bind_of_ok (word32_append (by decide) _), if_neg (by decide),
    Reader.bind_of_ok (word64_append (by decide) _), Reader.bind_of_ok (word64_append (by decide) _), Reader.repeated,
    Reader.pair]
  simp only [bind_assoc]
  rw [Reader.bind_of_ok (string_append _), Reader.bind_of_ok (word32_append (by decide) _),
    Reader.bind_of_ok (value_closed n)]
  rfl

/-- Arrays that are closed are parsed, however deep. -/
theorem exists_of_closed (n : Nat) : ∃ h, Header.parse (file n closing) = .ok h ∧
    h.metadata.get? "" = some (nest n) := by
  refine ⟨_, by rw [Header.parse, Reader.read_eq, header_closed]; rfl, ?_⟩
  exact (Metadata.get?_insert .empty "" "" _).trans (if_pos rfl)

end Nested

/-! ## The frames a file takes -/

namespace Header

/-- **So many frames are enough for files below `size`.**  With more frames there are more answers, and each is that
of the parser or of the look at a front.  A file of `size` bytes that takes more stops inside the last of its arrays,
and one that closes them is read, with a value that deep. -/
structure FramesFor (frames size : Nat) : Prop where
  answer : ∀ file, parseWithin frames file = none ∨ parseWithin frames file = some (parse file)
  look : ∀ front, Probe.ofFrontWithin frames front = none ∨
    Probe.ofFrontWithin frames front = some (Probe.ofFront front)
  more : ∀ file, (parseWithin (frames + 1) file = none → parseWithin frames file = none) ∧
    (Probe.ofFrontWithin (frames + 1) file = none → Probe.ofFrontWithin frames file = none)
  enough : ∀ file, file.length < size → parseWithin frames file ≠ none ∧ Probe.ofFrontWithin frames file ≠ none
  exceeded : ∃ file, file.length = size ∧ parseWithin frames file = none ∧ Probe.ofFrontWithin frames file = none
  accepted : ∃ file h v, file.length = size + 12 ∧ Header.parse file = .ok h ∧ h.metadata.get? "" = some v ∧
    v.depth = frames + 1 ∧ parseWithin frames file = none ∧ Probe.ofFrontWithin frames file = none

theorem framesFor (frames : Nat) : FramesFor frames (12 * frames + 36) where
  answer := parseWithin_eq frames
  look := Probe.ofFrontWithin_eq frames
  more _ := ⟨parseWithin_of_succ, Probe.ofFrontWithin_of_succ⟩
  enough _ hlt :=
    ⟨fun h => Nat.not_lt.2 (le_of_parseWithin h) hlt, fun h => Nat.not_lt.2 (Probe.le_of_ofFrontWithin h) hlt⟩
  exceeded := ⟨Nested.file frames [], Nested.length_file frames [], Nested.parseWithin_file frames [],
    Nested.ofFrontWithin_file frames []⟩
  accepted := by
    obtain ⟨h, hparse, hget⟩ := Nested.exists_of_closed frames
    exact ⟨_, h, _, Nested.length_file frames Nested.closing, hparse, hget, Nested.depth_nest frames,
      Nested.parseWithin_file frames _, Nested.ofFrontWithin_file frames _⟩

/-- **Only the length of a file bounds how deep its values are read.**  Each array takes twelve bytes, so in so many
frames all files are read that are short enough, and some file of one byte more is not; a value that is read takes as
many frames as it is deep.  The first look at a file, which stops after 64 KiB, takes at most 5459. -/
theorem framesFor_parse (frames : Nat) : FramesFor frames (12 * frames + 36) ∧
    (∀ type s v r, Reader.value type s = .ok (v, r) → (Stacked.value frames type s = none ↔ frames < v.depth)) ∧
    ∀ file : Bytes, Probe.ofFrontWithin 5459 (file.take Probe.frontBytes) = some (Probe.ofFile file) := by
  refine ⟨framesFor frames, fun type s v r h => Stacked.value_eq_none_iff frames h, fun file => ?_⟩
  refine (Probe.ofFrontWithin_eq 5459 _).resolve_left fun h => ?_
  have hle := Probe.le_of_ofFrontWithin h
  have hfront : (file.take Probe.frontBytes).length ≤ 64 * 1024 := List.length_take_le _ _
  omega

/-- **No number of frames is enough for every file.** -/
theorem not_framesFor_all : ¬∃ frames, ∀ file, parseWithin frames file = some (parse file) ∧
    Probe.ofFrontWithin frames file = some (Probe.ofFront file) := by
  rintro ⟨frames, h⟩
  have hnone := Nested.parseWithin_file frames []
  rw [(h _).1] at hnone
  cases hnone

end Header
end CausalLM.Container
