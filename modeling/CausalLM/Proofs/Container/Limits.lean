import CausalLM.Proofs.Bytes
import CausalLM.Proofs.Container.Reader
/-!
# Proofs.Container.Limits — what the values of a container can be

A value that is read is a string, an array that is not too long, or made of a field of fixed width
(`Reader.value_cases`), and the metadata of a header has no other values (`Header.exists_value_of_get?`).  So no array
there is longer than an array may be (`bounded_parse`), and its integers are words, which makes the alignment a power of
two that a word holds (`Header.alignment_dvd_of_parse`).
-/
namespace CausalLM.Container

/-! ## Values -/

namespace Reader

variable {α : Type} {s r : Bytes} {v : Metadata.Value}

theorem length_of_repeated {f : Reader α} : ∀ {n : Nat} {s r : Bytes} {l : List α},
    repeated f n s = .ok (l, r) → l.length = n
  | 0, s, r, l, h => by
    cases h
    rfl
  | n + 1, s, r, l, h => by
    obtain ⟨a, t, -, h⟩ := bind_eq_ok.1 h
    obtain ⟨rest, u, hrest, h⟩ := bind_eq_ok.1 h
    cases h
    exact congrArg (· + 1) (length_of_repeated hrest)

/-- **What a value can be.** -/
theorem value_cases {type : Nat} (h : value type s = .ok (v, r)) : (∃ text, v = .string text) ∨
    (∃ items, v = .array items ∧ items.length ≤ maxArrayLength) ∨
    ∃ width make b, scalar? type = some (width, make) ∧ b.length = width + 1 ∧ v = make b := by
  rw [value_eq] at h
  split at h
  · obtain ⟨text, t, -, h⟩ := bind_eq_ok.1 h
    cases h
    exact .inl ⟨text, rfl⟩
  split at h
  · obtain ⟨itemType, t, -, h⟩ := bind_eq_ok.1 h
    obtain ⟨n, t, -, h⟩ := bind_eq_ok.1 h
    split at h
    · cases h
    rename_i hlength
    obtain ⟨items, t, hitems, h⟩ := bind_eq_ok.1 h
    cases h
    exact .inr (.inl ⟨items, rfl, by rw [length_of_repeated hitems]; omega⟩)
  · rw [scalar] at h
    cases htype : scalar? type with
    | none =>
      rw [htype] at h
      cases h
    | some p =>
      obtain ⟨width, make⟩ := p
      rw [htype] at h
      obtain ⟨b, t, hb, h⟩ := bind_eq_ok.1 h
      cases h
      exact .inr (.inr ⟨width, make, b, rfl, (field_eq_ok_iff.1 hb).2, rfl⟩)

/-- A value of fixed width is no array. -/
theorem scalar_ne_array {type width : Nat} {make : Bytes → Metadata.Value} (htype : scalar? type = some (width, make))
    (b : Bytes) (items : List Metadata.Value) : make b ≠ .array items := by
  unfold scalar? at htype
  split at htype
  all_goals cases htype
  all_goals simp

/-- An integer of fixed width is a word. -/
theorem asUint_le_of_scalar {type width n : Nat} {make : Bytes → Metadata.Value} {b : Bytes}
    (htype : scalar? type = some (width, make)) (hlength : b.length = width + 1) (hn : (make b).asUint = some n) :
    n ≤ Word.max64 := by
  have hlt := Bytes.toNat_lt b
  have hint := Bytes.toInt_le b
  rw [hlength] at hlt
  unfold scalar? at htype
  split at htype <;> cases htype <;> simp [Metadata.Value.asUint] at hn <;> simp [Word.max64] <;> omega

theorem length_le_of_value {type : Nat} {items : List Metadata.Value} (h : value type s = .ok (.array items, r)) :
    items.length ≤ maxArrayLength := by
  obtain ⟨text, hv⟩ | ⟨items', hv, hlength⟩ | ⟨width, make, b, htype, -, hv⟩ := value_cases h
  · cases hv
  · cases hv
    exact hlength
  · exact absurd hv.symm (scalar_ne_array htype b items)

theorem asUint_le_of_value {type n : Nat} (h : value type s = .ok (v, r)) (hn : v.asUint = some n) :
    n ≤ Word.max64 := by
  obtain ⟨text, rfl⟩ | ⟨items, rfl, -⟩ | ⟨width, make, b, htype, hlength, rfl⟩ := value_cases h
  · cases hn
  · cases hn
  · exact asUint_le_of_scalar htype hlength hn

end Reader

/-- **The metadata of a header holds what was read.** -/
theorem Header.exists_value_of_get? {file : Bytes} {h : Header} {key : String} {v : Metadata.Value}
    (hparse : parse file = .ok h) (hget : h.metadata.get? key = some v) :
    ∃ type s r, Reader.value type s = .ok (v, r) := by
  obtain ⟨-, tensorCount, pairCount, pairs, u, t, r, -, hpairs, -, hmetadata⟩ := exists_of_parse hparse
  rw [hmetadata, Metadata.withPairs, Metadata.get?_foldl_insert, show Metadata.empty.get? key = none from rfl,
    Option.or_none, Option.map_eq_some_iff] at hget
  obtain ⟨p, hfind, rfl⟩ := hget
  obtain ⟨s, t, hpair⟩ := Reader.of_mem_repeated hpairs p (List.mem_reverse.1 (List.mem_of_find?_eq_some hfind))
  obtain ⟨key', s₁, -, hpair⟩ := Reader.bind_eq_ok.1 hpair
  obtain ⟨type, s₂, -, hpair⟩ := Reader.bind_eq_ok.1 hpair
  obtain ⟨v', s₃, hvalue, hpair⟩ := Reader.bind_eq_ok.1 hpair
  cases hpair
  exact ⟨type, s₂, _, hvalue⟩

/-! ## Arrays -/

/-- **No array of the metadata is longer than a container may have.** -/
def Metadata.Bounded (m : Metadata) : Prop :=
  ∀ key items, m.get? key = some (.array items) → items.length ≤ maxArrayLength

theorem bounded_parse {file : Bytes} {header : Header} (h : Header.parse file = .ok header) :
    header.metadata.Bounded := by
  intro key items hget
  obtain ⟨type, s, r, hvalue⟩ := Header.exists_value_of_get? h hget
  exact Reader.length_le_of_value hvalue

theorem Metadata.Bounded.length_strings_le {m : Metadata} (h : m.Bounded) (key : String) :
    (m.strings key).length ≤ maxArrayLength := by
  have hitems : ((m.array? key).getD []).length ≤ maxArrayLength := by
    unfold array?
    cases hget : m.get? key with
    | none => exact Nat.zero_le _
    | some v =>
      cases v with
      | array items => exact h key items hget
      | _ => exact Nat.zero_le _
  exact Nat.le_trans (List.length_filterMap_le _ _) hitems

/-! ## The alignment -/

namespace Metadata

theorem isPowerOfTwo_alignment (m : Metadata) : isPowerOfTwo m.alignment = true := by
  unfold alignment
  split
  · split
    · assumption
    · decide
  · decide

theorem alignment_pos (m : Metadata) : 0 < m.alignment := by
  have hpower := m.isPowerOfTwo_alignment
  rw [isPowerOfTwo, beq_iff_eq] at hpower
  rw [hpower]
  exact Nat.pow_pos (by decide)

theorem alignment_dvd {m : Metadata} (h : ∀ n, m.uint? "general.alignment" = some n → n ≤ Word.max64) :
    m.alignment ∣ 2 ^ 63 := by
  unfold alignment
  split
  · rename_i a ha
    split
    · rename_i hpower
      have hle := h a ha
      rw [isPowerOfTwo, beq_iff_eq] at hpower
      have hne : a ≠ 0 := by
        rintro rfl
        cases hpower
      have hlog : a.log2 < 64 := (Nat.log2_lt hne).2 (Nat.lt_of_le_of_lt hle (by decide))
      rw [hpower]
      exact Nat.pow_dvd_pow 2 (Nat.le_of_lt_succ hlog)
    · decide
  · decide

end Metadata

theorem Header.alignment_dvd_of_parse {file : Bytes} {h : Header} (hparse : parse file = .ok h) :
    h.metadata.alignment ∣ 2 ^ 63 := by
  refine Metadata.alignment_dvd fun n hn => ?_
  obtain ⟨v, hget, hn⟩ := Option.bind_eq_some_iff.1 hn
  obtain ⟨type, s, r, hvalue⟩ := exists_value_of_get? hparse hget
  exact Reader.asUint_le_of_value hvalue hn

end CausalLM.Container
