import CausalLM.Proofs.Tokenizer.Specials
/-!
# Proofs.Tokenizer.Indices — the tokens of a text are in the vocabulary

A token stands for a place of the vocabulary (`token?_ofIndex`), as long as there are numbers for all places, and a
special text is the text of a place with special type (`mem_specials`).  A lookup answers with a place of the text, so
whatever encoding gives is the token of a place (`isBelow_encode`), also where texts occur more than once or have no
symbols, and whatever words are found.
-/
namespace CausalLM

namespace Vocabulary

variable {v : Vocabulary}

theorem token?_ofIndex (hids : v.size ≤ 2 ^ 31) {i : Nat} (hi : i < v.size) :
    v.token? (.ofIndex i) = v.tokens[i]? := by
  rw [token?, Token.index?_ofIndex (Nat.lt_of_lt_of_le hi hids)]
  rfl

theorem type_ofIndex (hids : v.size ≤ 2 ^ 31) {i : Nat} (hi : i < v.size) :
    (v.type (.ofIndex i)).isSpecial = v.isSpecialAt i := by
  rw [type, isSpecialAt, Token.index?_ofIndex (Nat.lt_of_lt_of_le hi hids), Option.bind_some]
  cases v.types[i]? with
  | none => rfl
  | some t => rfl

theorem mem_entries {text : String} {i : Nat} : (text, i) ∈ v.entries ↔ v.tokens[i]? = some text := by
  rw [entries, List.mk_mem_zipIdx_iff_getElem?, Array.getElem?_toList]

theorem lt_size_of_getElem? {text : String} {i : Nat} (h : v.tokens[i]? = some text) : i < v.size :=
  (Array.getElem?_eq_some_iff.1 h).1

theorem isBelow_ofIndex (hids : v.size ≤ 2 ^ 31) {i : Nat} {text : String} (h : v.tokens[i]? = some text) :
    (Token.ofIndex i).isBelow v.size = true := by
  have hlt := lt_size_of_getElem? h
  exact Token.isBelow_iff.2 ⟨i, Token.index?_ofIndex (Nat.lt_of_lt_of_le hlt hids), hlt⟩

/-- **The place holds a special token with this text**, which is not empty. -/
structure SpecialAt (v : Vocabulary) (x : List Char) (i : Nat) : Prop where
  ne_nil : x ≠ []
  text_eq : v.tokens[i]? = some (String.ofList x)
  isSpecial : ∃ type, v.types[i]? = some type ∧ type.isSpecial = true

theorem isSpecialAt_iff {i : Nat} : v.isSpecialAt i = true ↔
    ∃ type, v.types[i]? = some type ∧ type.isSpecial = true := by
  unfold isSpecialAt
  cases v.types[i]? with
  | none => simp
  | some type => simp

/-- **The special tokens of a vocabulary** are those of special type that have a text. -/
theorem mem_specials {text : String} {token : Token} :
    (text, token) ∈ v.specials ↔ ∃ i, v.SpecialAt text.toList i ∧ token = .ofIndex i := by
  unfold specials
  rw [List.mem_filterMap]
  constructor
  · rintro ⟨⟨text', i⟩, hmem, h⟩
    rw [mem_entries] at hmem
    dsimp only at h
    split at h
    · rename_i hspecial
      cases h
      refine ⟨i, ⟨fun h => hspecial.1 (String.toList_eq_nil_iff.1 h), ?_, isSpecialAt_iff.1 hspecial.2⟩, rfl⟩
      rw [String.ofList_toList]
      exact hmem
    · cases h
  · rintro ⟨i, ⟨hne, htext, hspecial⟩, rfl⟩
    rw [String.ofList_toList] at htext
    exact ⟨(text, i), mem_entries.2 htext,
      if_pos ⟨fun h => hne (String.toList_eq_nil_iff.2 h), isSpecialAt_iff.2 hspecial⟩⟩

theorem mem_list_specials {x : List Char} {token : Token} :
    (x, token) ∈ (Specials.ofVocabulary v).list ↔ ∃ i, v.SpecialAt x i ∧ token = .ofIndex i := by
  rw [Specials.mem_ofVocabulary]
  constructor
  · rintro ⟨text, hmem, rfl⟩
    exact mem_specials.1 hmem
  · rintro ⟨i, h, rfl⟩
    exact ⟨String.ofList x, mem_specials.2 ⟨i, by rwa [String.toList_ofList], rfl⟩, String.toList_ofList⟩

end Vocabulary

namespace Tokenizer

/-! ## Cutting out special tokens -/

theorem encodeChars_of_none {t : Tokenizer} {text : List Char} (h : t.specials.next? text = none) :
    t.encodeChars text = t.encodePlain text := by
  unfold encodeChars
  split
  · rfl
  · rename_i hsome
    rw [h] at hsome
    cases hsome

theorem encodeChars_of_some {t : Tokenizer} {text before after : List Char} {token : Token}
    (h : t.specials.next? text = some (before, token, after)) :
    t.encodeChars text = t.encodePlain before ++ token :: t.encodeChars after := by
  conv => lhs; unfold encodeChars
  split
  · rename_i hnone
    rw [h] at hnone
    cases hnone
  · rename_i hsome
    rw [h] at hsome
    cases hsome
    rfl

theorem encodePlain_ofVocabulary_nil (v : Vocabulary) : (ofVocabulary v).encodePlain [] = [] := by
  have hwords : (ofVocabulary v).find [] = [] := Words.find.eq_1
  rw [encodePlain, hwords, List.flatMap_nil]

theorem encode_ofVocabulary_empty (v : Vocabulary) : (ofVocabulary v).encode "" = [] :=
  (encodeChars_of_none (Specials.next?_nil _)).trans (encodePlain_ofVocabulary_nil v)

/-! ## Tokens of the vocabulary -/

theorem mem_of_foldl_insert {text : String} {i : Nat} : ∀ {l : List (String × Nat)} {m : Std.HashMap String Nat},
    (l.foldl (fun m (text, i) => m.insert text i) m)[text]? = some i → (text, i) ∈ l ∨ m[text]? = some i
  | [], _, h => .inr h
  | (text', i') :: l, m, h => by
    rcases mem_of_foldl_insert (l := l) h with h | h
    · exact .inl (List.mem_cons_of_mem _ h)
    · rw [Std.HashMap.getElem?_insert] at h
      split at h
      · rename_i heq
        cases h
        exact .inl (List.mem_cons.2 (.inl (by rw [eq_of_beq heq])))
      · exact .inr h

variable {f : Words.Finder} {v : Vocabulary} (hids : v.size ≤ 2 ^ 31)

include hids

theorem isBelow_of_id? {text : String} {token : Token} (h : (searching f v).id? text = some token) :
    token.isBelow v.size = true := by
  rw [id?, Option.map_eq_some_iff] at h
  obtain ⟨i, hi, rfl⟩ := h
  rcases mem_of_foldl_insert hi with hmem | hnone
  · exact Vocabulary.isBelow_ofIndex hids (Vocabulary.mem_entries.1 hmem)
  · simp at hnone

theorem isBelow_encodePiece {piece : String} :
    ∀ token ∈ (searching f v).encodePiece piece, token.isBelow v.size = true := by
  intro token h
  unfold encodePiece at h
  split at h
  · rename_i whole hwhole
    rw [List.mem_singleton.1 h]
    exact isBelow_of_id? hids hwhole
  · obtain ⟨c, -, hc⟩ := List.mem_filterMap.1 h
    exact isBelow_of_id? hids hc

theorem isBelow_encodePlain {text : List Char} :
    ∀ token ∈ (searching f v).encodePlain text, token.isBelow v.size = true := by
  intro token h
  obtain ⟨item, -, h⟩ := List.mem_flatMap.1 h
  cases item with
  | error why => cases h
  | ok word =>
    obtain ⟨piece, -, h⟩ := List.mem_flatMap.1 h
    exact isBelow_encodePiece hids token h

theorem isBelow_encodeChars (text : List Char) :
    ∀ token ∈ (searching f v).encodeChars text, token.isBelow v.size = true := by
  intro token h
  cases hnext : (searching f v).specials.next? text with
  | none =>
    rw [encodeChars_of_none hnext] at h
    exact isBelow_encodePlain hids token h
  | some found =>
    obtain ⟨before, special, after⟩ := found
    have hlt := (searching f v).specials.length_next?_lt text hnext
    rw [encodeChars_of_some hnext] at h
    rcases List.mem_append.1 h with h | h
    · exact isBelow_encodePlain hids token h
    rcases List.mem_cons.1 h with rfl | h
    · obtain ⟨x, hmem, -⟩ := Specials.of_next? hnext
      obtain ⟨i, hi, rfl⟩ := Vocabulary.mem_list_specials.1 hmem
      exact Vocabulary.isBelow_ofIndex hids hi.text_eq
    · exact isBelow_encodeChars after token h
termination_by text.length

/-- **Every token of a text is in the vocabulary.** -/
theorem isBelow_encode (text : String) : ∀ token ∈ (searching f v).encode text, token.isBelow v.size = true :=
  isBelow_encodeChars hids text.toList

end Tokenizer
end CausalLM
