import CausalLM.Proofs.Text.Characters
import CausalLM.Tokenizer
/-!
# Proofs.Tokenizer.Pieces — what pieces of a word are made of

Joining pieces keeps their characters in order (`flatMap_toList_all`), so the pieces of a word are stretches of the
symbols of its bytes.  A printable symbol is the character itself (`symbols_char`); so a stretch of printable symbols
stands in the word as it is (`infix_of_infix_symbols`).
-/
namespace CausalLM

/-! ## Joining -/

namespace Merge

theorem flatMap_toList_join (p : Pair) (word : List String) :
    (join p word).flatMap String.toList = word.flatMap String.toList := by
  fun_induction join p word with
  | case1 a b rest h ih => simp [ih]
  | case2 a b rest h ih => rw [List.flatMap_cons, List.flatMap_cons, ih]
  | case3 word h => rfl

/-- **Joining loses no character.** -/
theorem flatMap_toList_all (ranks : Ranks) (word : List String) :
    (all ranks word).flatMap String.toList = word.flatMap String.toList := by
  fun_induction all ranks word with
  | case1 word h => rfl
  | case2 word p r h hlt ih => rw [ih, flatMap_toList_join]

theorem all_of_lowest {ranks : Ranks} {word : List String} {p : Pair} {r : Nat}
    (h : lowest ranks none (pairs word) = some (p, r)) :
    all ranks word = all ranks (join p word) := by
  rw [all]
  split
  · rename_i hnone
    rw [h] at hnone
    cases hnone
  · rename_i hsome
    rw [h] at hsome
    cases hsome
    rfl

theorem all_of_none {ranks : Ranks} {word : List String} (h : lowest ranks none (pairs word) = none) :
    all ranks word = word := by
  rw [all]
  split
  · rfl
  · rename_i hsome
    rw [h] at hsome
    cases hsome

theorem lowest_empty (best : Option (Pair × Nat)) : ∀ l : List Pair, lowest ∅ best l = best
  | [] => rfl
  | p :: l => by
    have hbetter : better ∅ best p = best := by simp [better]
    rw [lowest, List.foldl_cons, hbetter]
    exact lowest_empty best l

/-- Without ranks nothing is joined. -/
theorem all_empty (word : List String) : all ∅ word = word := all_of_none (lowest_empty none _)

end Merge

/-! ## Symbols -/

namespace Symbols

/-- The characters that are their own symbols, `!` to `~`. -/
def Printable (c : Char) : Prop := 0x21 ≤ c.toNat ∧ c.toNat ≤ 0x7e

instance : DecidablePred Printable := fun c => inferInstanceAs (Decidable (0x21 ≤ c.toNat ∧ c.toNat ≤ 0x7e))

/-- The symbol of a byte is printable only if it is the byte's own character. -/
theorem eq_of_printable_ofByte {b : UInt8} (h : Printable (ofByte b)) :
    ofByte b = Char.ofNat b.toNat ∧ b.toNat < 0x80 := by
  have hall : ∀ i : Fin 256, Printable (ofByte ⟨⟨i⟩⟩) → ofByte ⟨⟨i⟩⟩ = Char.ofNat i ∧ i.val < 0x80 := by decide +kernel
  exact hall b.toBitVec.toFin h

theorem ofByte_of_printable {c : Char} (h : Printable c) : ofByte (UInt8.ofNat c.toNat) = c := by
  have hbyte : (UInt8.ofNat c.toNat).toNat = c.toNat := by
    rw [UInt8.toNat_ofNat']
    have := h.2
    omega
  have hself : Char.ofNat c.toNat = c := Char.ofNat_toNat c
  unfold ofByte
  dsimp only
  rw [hbyte, if_neg (by have := h.1; omega), if_pos (by have := h.2; omega), hself]

end Symbols

namespace Utf8

/-- A character of one byte is that byte; all bytes of another one are above. -/
theorem encodeChar_cases (c : Char) : String.utf8EncodeChar c = [UInt8.ofNat c.toNat] ∧ c.toNat < 0x80 ∨
    (∀ b ∈ String.utf8EncodeChar c, 0x80 ≤ b.toNat) ∧ 0x80 ≤ c.toNat := by
  have hval : c.val.toNat = c.toNat := rfl
  have hvalid := char_bounds c
  rw [String.utf8EncodeChar, hval]
  by_cases h₁ : c.toNat ≤ 0x7f
  · rw [if_pos h₁]
    exact .inl ⟨rfl, Nat.lt_succ_of_le h₁⟩
  refine .inr ⟨fun b hb => ?_, by omega⟩
  rw [if_neg h₁] at hb
  by_cases h₂ : c.toNat ≤ 0x7ff
  · rw [if_pos h₂] at hb
    simp only [List.mem_cons, List.not_mem_nil, or_false] at hb
    rcases hb with rfl | rfl <;> rw [UInt8.toNat_ofNat'] <;> omega
  rw [if_neg h₂] at hb
  by_cases h₃ : c.toNat ≤ 0xffff
  · rw [if_pos h₃] at hb
    simp only [List.mem_cons, List.not_mem_nil, or_false] at hb
    rcases hb with rfl | rfl | rfl <;> rw [UInt8.toNat_ofNat'] <;> omega
  · rw [if_neg h₃] at hb
    simp only [List.mem_cons, List.not_mem_nil, or_false] at hb
    rcases hb with rfl | rfl | rfl | rfl <;> rw [UInt8.toNat_ofNat'] <;> omega

theorem encodeChar_ne_nil (c : Char) : String.utf8EncodeChar c ≠ [] := by
  rw [← List.length_pos_iff, String.length_utf8EncodeChar]
  exact c.utf8Size_pos

theorem encode_append (xs ys : List Char) : encode (xs ++ ys) = encode xs ++ encode ys := List.flatMap_append

theorem encode_flatten (words : List (List Char)) : encode words.flatten = words.flatMap encode := by
  unfold encode
  rw [← List.flatMap_id, List.flatMap_assoc]
  rfl

end Utf8

namespace Symbols

/-- **A character is its own only symbol, or none of its symbols is printable.** -/
theorem symbols_char (c : Char) : (String.utf8EncodeChar c).map ofByte = [c] ∨
    ∀ d ∈ (String.utf8EncodeChar c).map ofByte, ¬Printable d := by
  rcases Utf8.encodeChar_cases c with ⟨hone, hlt⟩ | ⟨habove, -⟩
  · rw [hone]
    by_cases h : Printable c
    · left
      rw [List.map_singleton, ofByte_of_printable h]
    · right
      intro d hd hprintable
      rw [List.map_singleton, List.mem_singleton] at hd
      subst hd
      have hself := (eq_of_printable_ofByte hprintable).1
      rw [UInt8.toNat_ofNat', Nat.mod_eq_of_lt (by omega), Char.ofNat_toNat] at hself
      rw [hself] at hprintable
      exact h hprintable
  · right
    intro d hd hprintable
    obtain ⟨b, hb, rfl⟩ := List.mem_map.1 hd
    have := (eq_of_printable_ofByte hprintable).2
    have := habove b hb
    omega

theorem encode_map_ofByte (cs : List Char) :
    (Utf8.encode cs).map ofByte = cs.flatMap fun c => (String.utf8EncodeChar c).map ofByte := by
  rw [Utf8.encode, List.map_flatMap]

theorem prefix_of_prefix_symbols : ∀ {x cs : List Char}, (∀ c ∈ x, Printable c) →
    x <+: (Utf8.encode cs).map ofByte → x <+: cs
  | [], cs, _, _ => List.nil_prefix
  | a :: x, [], _, h => by
    rw [Utf8.encode, List.flatMap_nil, List.map_nil, List.prefix_nil] at h
    cases h
  | a :: x, c :: cs, hx, h => by
    obtain ⟨ha, hx⟩ := List.forall_mem_cons.1 hx
    rw [encode_map_ofByte, List.flatMap_cons, ← encode_map_ofByte] at h
    rcases symbols_char c with hown | hnone
    · rw [hown, List.singleton_append, List.cons_prefix_cons] at h
      obtain ⟨rfl, h⟩ := h
      exact List.cons_prefix_cons.2 ⟨rfl, prefix_of_prefix_symbols hx h⟩
    · cases hsymbols : (String.utf8EncodeChar c).map ofByte with
      | nil => exact absurd (List.map_eq_nil_iff.1 hsymbols) (Utf8.encodeChar_ne_nil c)
      | cons d ds =>
        rw [hsymbols, List.cons_append, List.cons_prefix_cons] at h
        refine absurd ha (hnone a ?_)
        rw [hsymbols, h.1]
        exact List.mem_cons_self

/-- **A stretch of printable symbols stands in the text as it is.** -/
theorem infix_of_infix_symbols {x : List Char} (hx : ∀ c ∈ x, Printable c) (hne : x ≠ []) :
    ∀ {cs : List Char}, x <:+: (Utf8.encode cs).map ofByte → x <:+: cs
  | [], h => by
    rw [Utf8.encode, List.flatMap_nil, List.map_nil, List.infix_nil] at h
    exact absurd h hne
  | c :: cs, h => by
    have hsplit : (Utf8.encode (c :: cs)).map ofByte =
        (String.utf8EncodeChar c).map ofByte ++ (Utf8.encode cs).map ofByte := by
      rw [encode_map_ofByte, List.flatMap_cons, ← encode_map_ofByte]
    obtain ⟨front, rest, h⟩ := h
    rw [hsplit, List.append_assoc, List.append_eq_append_iff] at h
    have hlater : ∀ more : List Char, (Utf8.encode cs).map ofByte = more ++ (x ++ rest) → x <:+: c :: cs := fun more hrest =>
      List.infix_cons (infix_of_infix_symbols hx hne ⟨_, rest, by rw [hrest, List.append_assoc]⟩)
    -- the stretch starts among the symbols of the first character, or behind them
    rcases h with ⟨more, hfront, hrest⟩ | ⟨more, hfront, hrest⟩
    · cases more with
      | nil => exact hlater [] hrest.symm
      | cons d more =>
        cases x with
        | nil => exact absurd rfl hne
        | cons a x =>
          obtain ⟨rfl, -⟩ := List.cons.inj hrest
          rcases symbols_char c with hown | hnone
          · rw [hown] at hfront
            cases front with
            | nil =>
              refine (prefix_of_prefix_symbols hx ⟨rest, ?_⟩).isInfix
              obtain ⟨rfl, rfl⟩ := List.cons.inj hfront
              rw [hsplit, hown]
              exact hrest
            | cons b front => simp at hfront
          · refine absurd (hx a List.mem_cons_self) (hnone a ?_)
            rw [hfront]
            exact List.mem_append_right _ List.mem_cons_self
    · exact hlater more hrest

end Symbols
end CausalLM
