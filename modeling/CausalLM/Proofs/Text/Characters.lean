import CausalLM.Proofs.Text.Utf8
/-!
# Proofs.Text.Characters — a text is read back from its bytes

Characters take one to four bytes, and the first of them tells how many.  What stands at the front of the bytes of a
character is that character, whatever follows (`lossy_encodeChar`), so reading the bytes of a text gives the text
(`toStringLossy_ofString`).
-/
namespace CausalLM.Utf8

theorem char_bounds (c : Char) : c.toNat < 0xd800 ∨ 0xdfff < c.toNat ∧ c.toNat < 0x110000 := c.valid

/-- A byte that carries six bits. -/
theorem toNat_continuation (n : Nat) : (UInt8.ofNat (n % 64 + 0x80)).toNat = n % 64 + 0x80 := by
  rw [UInt8.toNat_ofNat']
  omega

theorem isContinuation_of_mod (n : Nat) : isContinuation (UInt8.ofNat (n % 64 + 0x80)) = true := by
  rw [isContinuation, toNat_continuation, Bool.and_eq_true, decide_eq_true_eq, decide_eq_true_eq]
  omega

theorem front_one {c : Char} (h : c.toNat ≤ 0x7f) (rest : List UInt8) :
    front (UInt8.ofNat c.toNat) rest = .scalar c 1 := by
  have hlead : (UInt8.ofNat c.toNat).toNat = c.toNat := by
    rw [UInt8.toNat_ofNat']
    omega
  simp only [front, hlead]
  rw [if_pos (by omega), Char.ofNat_toNat]

theorem front_two {c : Char} (h₁ : 0x7f < c.toNat) (h₂ : c.toNat ≤ 0x7ff) (rest : List UInt8) :
    front (UInt8.ofNat (c.toNat / 64 % 32 + 0xc0)) (UInt8.ofNat (c.toNat % 64 + 0x80) :: rest) = .scalar c 2 := by
  have hlead : (UInt8.ofNat (c.toNat / 64 % 32 + 0xc0)).toNat = c.toNat / 64 % 32 + 0xc0 := by
    rw [UInt8.toNat_ofNat']
    omega
  have hjoin : (c.toNat / 64 % 32 + 0xc0) % 32 * 64 + (c.toNat % 64 + 0x80) % 64 = c.toNat := by omega
  simp only [front, hlead, isContinuation_of_mod, join, List.foldl_cons, List.foldl_nil, toNat_continuation, hjoin,
    Char.ofNat_toNat]
  rw [if_neg (by omega), if_neg (by omega), if_pos (by omega)]
  rfl

theorem front_three {c : Char} (h₁ : 0x7ff < c.toNat) (h₂ : c.toNat ≤ 0xffff) (rest : List UInt8) :
    front (UInt8.ofNat (c.toNat / 4096 % 16 + 0xe0)) (UInt8.ofNat (c.toNat / 64 % 64 + 0x80) ::
      UInt8.ofNat (c.toNat % 64 + 0x80) :: rest) = .scalar c 3 := by
  have hvalid := char_bounds c
  have hlead : (UInt8.ofNat (c.toNat / 4096 % 16 + 0xe0)).toNat = c.toNat / 4096 % 16 + 0xe0 := by
    rw [UInt8.toNat_ofNat']
    omega
  have hsecond : within (secondRange (c.toNat / 4096 % 16 + 0xe0)) (UInt8.ofNat (c.toNat / 64 % 64 + 0x80)) = true := by
    rw [within, toNat_continuation, Bool.and_eq_true, decide_eq_true_eq, decide_eq_true_eq, secondRange]
    split
    · simp only
      omega
    · split
      · simp only
        omega
      · rw [if_neg (by omega), if_neg (by omega)]
        simp only
        omega
  have hjoin : ((c.toNat / 4096 % 16 + 0xe0) % 16 * 64 + (c.toNat / 64 % 64 + 0x80) % 64) * 64 +
      (c.toNat % 64 + 0x80) % 64 = c.toNat := by omega
  simp only [front, hlead, hsecond, isContinuation_of_mod, join, List.foldl_cons, List.foldl_nil, toNat_continuation,
    hjoin, Char.ofNat_toNat]
  rw [if_neg (by omega), if_neg (by omega), if_neg (by omega), if_pos (by omega)]
  rfl

theorem front_four {c : Char} (h₁ : 0xffff < c.toNat) (rest : List UInt8) :
    front (UInt8.ofNat (c.toNat / 262144 % 8 + 0xf0)) (UInt8.ofNat (c.toNat / 4096 % 64 + 0x80) ::
      UInt8.ofNat (c.toNat / 64 % 64 + 0x80) :: UInt8.ofNat (c.toNat % 64 + 0x80) :: rest) = .scalar c 4 := by
  have hvalid := char_bounds c
  have hlead : (UInt8.ofNat (c.toNat / 262144 % 8 + 0xf0)).toNat = c.toNat / 262144 % 8 + 0xf0 := by
    rw [UInt8.toNat_ofNat']
    omega
  have hsecond : within (secondRange (c.toNat / 262144 % 8 + 0xf0)) (UInt8.ofNat (c.toNat / 4096 % 64 + 0x80)) = true := by
    rw [within, toNat_continuation, Bool.and_eq_true, decide_eq_true_eq, decide_eq_true_eq, secondRange,
      if_neg (by omega), if_neg (by omega)]
    split
    · simp only
      omega
    · split
      · simp only
        omega
      · simp only
        omega
  have hjoin : (((c.toNat / 262144 % 8 + 0xf0) % 8 * 64 + (c.toNat / 4096 % 64 + 0x80) % 64) * 64 +
      (c.toNat / 64 % 64 + 0x80) % 64) * 64 + (c.toNat % 64 + 0x80) % 64 = c.toNat := by omega
  simp only [front, hlead, hsecond, isContinuation_of_mod, join, List.foldl_cons, List.foldl_nil, toNat_continuation,
    hjoin, Char.ofNat_toNat]
  rw [if_neg (by omega), if_neg (by omega), if_neg (by omega), if_neg (by omega), if_pos (by omega)]
  rfl

/-- **The bytes of a character are read as that character.** -/
theorem lossy_encodeChar (c : Char) (rest : List UInt8) :
    lossy (String.utf8EncodeChar c ++ rest) = c :: lossy rest := by
  have hval : c.val.toNat = c.toNat := rfl
  rw [String.utf8EncodeChar, hval]
  by_cases h₁ : c.toNat ≤ 0x7f
  · rw [if_pos h₁, List.singleton_append, lossy_cons, front_one h₁]
    rfl
  rw [if_neg h₁]
  by_cases h₂ : c.toNat ≤ 0x7ff
  · rw [if_pos h₂, List.cons_append, List.cons_append, List.nil_append, lossy_cons, front_two (by omega) h₂]
    rfl
  rw [if_neg h₂]
  by_cases h₃ : c.toNat ≤ 0xffff
  · rw [if_pos h₃, List.cons_append, List.cons_append, List.cons_append, List.nil_append, lossy_cons,
      front_three (by omega) h₃]
    rfl
  · rw [if_neg h₃, List.cons_append, List.cons_append, List.cons_append, List.cons_append, List.nil_append, lossy_cons,
      front_four (by omega)]
    rfl

theorem lossy_encode_append (bytes : List UInt8) : ∀ cs : List Char, lossy (encode cs ++ bytes) = cs ++ lossy bytes
  | [] => rfl
  | c :: cs => by
    have ih := lossy_encode_append bytes cs
    rw [encode] at ih
    rw [encode, List.flatMap_cons, List.append_assoc, lossy_encodeChar, ih]
    rfl

theorem lossy_encode (cs : List Char) : lossy (encode cs) = cs := by
  have hnothing := lossy_encode_append [] cs
  rwa [List.append_nil, lossy_nil, List.append_nil] at hnothing

theorem ofString_eq_encode (s : String) : ofString s = encode s.toList := by
  rw [ofString_eq, ← String.utf8Encode_toList, List.utf8Encode, List.toList_data_toByteArray]
  rfl

/-- **The bytes of a text are read as that text.** -/
theorem toStringLossy_ofString (s : String) : toStringLossy (ofString s) = s := by
  rw [toStringLossy, ofString_eq_encode, lossy_encode, String.ofList_toList]

end CausalLM.Utf8
