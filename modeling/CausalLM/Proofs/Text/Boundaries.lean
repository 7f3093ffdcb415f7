import CausalLM.Proofs.Text.Characters
/-!
# Proofs.Text.Boundaries — bytes of a text inside another

The first byte of a character continues none, and all its other bytes do (`encodeChar_eq_cons`).  So where the bytes of
a text stand among those of another one they start and end between its characters (`exists_of_encode_eq_append`):
looking for bytes is looking for characters.
-/
namespace CausalLM.Utf8

theorem isContinuation_of_low {n : Nat} (h : n < 0x80) : isContinuation (UInt8.ofNat n) = false := by
  have hval : (UInt8.ofNat n).toNat = n := by
    rw [UInt8.toNat_ofNat']
    omega
  rw [isContinuation, hval, Bool.and_eq_false_iff, decide_eq_false_iff_not]
  exact .inl (by omega)

theorem isContinuation_of_high {n : Nat} (h : 0xc0 ≤ n) (h' : n < 0x100) : isContinuation (UInt8.ofNat n) = false := by
  have hval : (UInt8.ofNat n).toNat = n := by
    rw [UInt8.toNat_ofNat']
    omega
  rw [isContinuation, hval, Bool.and_eq_false_iff, decide_eq_false_iff_not, decide_eq_false_iff_not]
  exact .inr (by omega)

/-- **Of the bytes of a character the first continues none, and all others do.** -/
theorem encodeChar_eq_cons (c : Char) : ∃ lead rest, String.utf8EncodeChar c = lead :: rest ∧
    isContinuation lead = false ∧ ∀ b ∈ rest, isContinuation b = true := by
  have hval : c.val.toNat = c.toNat := rfl
  rw [String.utf8EncodeChar, hval]
  by_cases h₁ : c.toNat ≤ 0x7f
  · rw [if_pos h₁]
    exact ⟨_, _, rfl, isContinuation_of_low (by omega), fun b hb => by cases hb⟩
  rw [if_neg h₁]
  by_cases h₂ : c.toNat ≤ 0x7ff
  · rw [if_pos h₂]
    refine ⟨_, _, rfl, isContinuation_of_high (by omega) (by omega), fun b hb => ?_⟩
    rw [List.mem_singleton.1 hb]
    exact isContinuation_of_mod _
  rw [if_neg h₂]
  by_cases h₃ : c.toNat ≤ 0xffff
  · rw [if_pos h₃]
    refine ⟨_, _, rfl, isContinuation_of_high (by omega) (by omega), fun b hb => ?_⟩
    simp only [List.mem_cons, List.not_mem_nil, or_false] at hb
    rcases hb with rfl | rfl <;> exact isContinuation_of_mod _
  · rw [if_neg h₃]
    refine ⟨_, _, rfl, isContinuation_of_high (by omega) (by omega), fun b hb => ?_⟩
    simp only [List.mem_cons, List.not_mem_nil, or_false] at hb
    rcases hb with rfl | rfl | rfl <;> exact isContinuation_of_mod _

theorem encode_injective {xs ys : List Char} (h : encode xs = encode ys) : xs = ys := by
  rw [← lossy_encode xs, h, lossy_encode]

theorem encode_ne_nil {xs : List Char} (h : xs ≠ []) : encode xs ≠ [] := fun hnil =>
  h (encode_injective (hnil.trans (List.flatMap_nil ..).symm))

/-- What begins like a text begins with its characters. -/
theorem exists_of_encode_eq_front {text x : List Char} {b : List UInt8} (h : encode text = encode x ++ b) :
    ∃ b', b = encode b' ∧ text = x ++ b' := by
  have htext : text = x ++ lossy b := by
    rw [← lossy_encode text, h, lossy_encode_append]
  refine ⟨lossy b, ?_, htext⟩
  rw [htext, encode, List.flatMap_append] at h
  exact (List.append_cancel_left h).symm

/-- **The bytes of a text stand among those of another one only between its characters.** -/
theorem exists_of_encode_eq_append {x : List Char} (hne : x ≠ []) {b : List UInt8} :
    ∀ {text : List Char} {a : List UInt8}, encode text = a ++ (encode x ++ b) →
      ∃ a' b', a = encode a' ∧ b = encode b' ∧ text = a' ++ (x ++ b')
  | [], a, h => by
    obtain ⟨-, h⟩ := List.append_eq_nil_iff.1 h.symm
    obtain ⟨h, -⟩ := List.append_eq_nil_iff.1 h
    exact absurd h (encode_ne_nil hne)
  | c :: cs, a, h => by
    have hlater : ∀ m, a = String.utf8EncodeChar c ++ m → encode cs = m ++ (encode x ++ b) →
        ∃ a' b', a = encode a' ∧ b = encode b' ∧ c :: cs = a' ++ (x ++ b') := fun m ha hm => by
      obtain ⟨a', b', hma, hb, htext⟩ := exists_of_encode_eq_append hne hm
      refine ⟨c :: a', b', ?_, hb, by rw [htext]; rfl⟩
      rw [ha, hma, encode, encode, List.flatMap_cons]
    have hsplit : String.utf8EncodeChar c ++ encode cs = a ++ (encode x ++ b) := h
    rcases List.append_eq_append_iff.1 hsplit with ⟨m, ha, hm⟩ | ⟨m, hc, hm⟩
    · exact hlater m ha hm
    -- the bytes start among those of the first character, so with its first one
    cases a with
    | nil =>
      obtain ⟨b', hb, htext⟩ := exists_of_encode_eq_front (h.trans (List.nil_append _))
      exact ⟨[], b', rfl, hb, htext⟩
    | cons byte a =>
      cases m with
      | nil =>
        refine hlater [] ?_ ?_
        · rw [hc, List.append_nil, List.append_nil]
        · rw [List.nil_append, hm, List.nil_append]
      | cons d m =>
        obtain ⟨e, xs, rfl⟩ := List.exists_cons_of_ne_nil hne
        obtain ⟨lead, rest, hlead, hstarts, -⟩ := encodeChar_eq_cons e
        obtain ⟨first, others, hfirst, -, hcontinues⟩ := encodeChar_eq_cons c
        rw [hfirst, List.cons_append] at hc
        rw [encode, List.flatMap_cons, hlead] at hm
        have hd : isContinuation d = true := hcontinues d (by rw [(List.cons.inj hc).2]; simp)
        rw [← (List.cons.inj hm).1, hstarts] at hd
        cases hd

end CausalLM.Utf8
