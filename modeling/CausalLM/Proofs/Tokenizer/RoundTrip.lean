import CausalLM.Proofs.Tokenizer.Indices
import CausalLM.Proofs.Tokenizer.Pieces
import CausalLM.Proofs.Tokenizer.Words
import Mathlib.Data.List.Basic
import Mathlib.Data.List.Nodup
/-!
# Proofs.Tokenizer.RoundTrip — a covered text is read back from its tokens

A text is covered by a vocabulary that has the symbol of every byte outside special tokens.  The pieces that are not
tokens fall apart into symbols that are, and a piece that is a token is no special one, because special texts are
printable and would have been cut out before (`spells_encodeWord`).  So the tokens of a covered text spell its bytes
(`tokenBytes_encode`), if no search for words is given up and there are numbers for all tokens.  Where either fails a
covered text may be lost (`covered_not_read_back`).
-/
namespace CausalLM

namespace Vocabulary

variable {v : Vocabulary}

/-- **The byte has a symbol** that is a token, and no special one. -/
def HasSymbol (v : Vocabulary) (b : UInt8) : Prop :=
  ∃ i, v.tokens[i]? = some (String.singleton (Symbols.ofByte b)) ∧ v.isSpecialAt i = false

/-- **The texts of special tokens are printable**: all their bytes are between `!` and `~`. -/
def PrintableSpecials (v : Vocabulary) : Prop :=
  ∀ i text, v.tokens[i]? = some text → v.isSpecialAt i = true → ∀ b ∈ Utf8.ofString text, 0x21 ≤ b.toNat ∧ b.toNat ≤ 0x7e

/-- **A text that a vocabulary covers**: no two tokens have one text, the texts of special tokens are printable, and
what is outside those that stand in the text has symbols. -/
structure Covers (v : Vocabulary) (text : String) : Prop where
  distinct : v.tokens.toList.Nodup
  printable : v.PrintableSpecials
  symbols : ∀ b ∈ Utf8.encode ((Specials.ofVocabulary v).outside text.toList), v.HasSymbol b

theorem printable_of_bytes {cs : List Char} (h : ∀ b ∈ Utf8.encode cs, 0x21 ≤ b.toNat ∧ b.toNat ≤ 0x7e) :
    ∀ c ∈ cs, Symbols.Printable c := by
  intro c hc
  have hbytes : ∀ b ∈ String.utf8EncodeChar c, 0x21 ≤ b.toNat ∧ b.toNat ≤ 0x7e := fun b hb =>
    h b (List.mem_flatMap.2 ⟨c, hc, hb⟩)
  rcases Utf8.encodeChar_cases c with ⟨hone, hlt⟩ | ⟨habove, -⟩
  · rw [hone] at hbytes
    have hb := hbytes _ (List.mem_singleton.2 rfl)
    rwa [UInt8.toNat_ofNat', Nat.mod_eq_of_lt (by omega)] at hb
  · cases hchar : String.utf8EncodeChar c with
    | nil => exact absurd hchar (Utf8.encodeChar_ne_nil c)
    | cons b rest =>
      rw [hchar] at habove hbytes
      have := habove b List.mem_cons_self
      have := hbytes b List.mem_cons_self
      omega

end Vocabulary

namespace Tokenizer

/-! ## Looking texts up -/

theorem getElem?_foldl_insert {text : String} {i : Nat} : ∀ {l : List (String × Nat)} {m : Std.HashMap String Nat},
    (l.map Prod.fst).Nodup → ((l.foldl (fun m (text, i) => m.insert text i) m)[text]? = some i ↔
      (text, i) ∈ l ∨ text ∉ l.map Prod.fst ∧ m[text]? = some i)
  | [], m, _ => by simp
  | (text', i') :: l, m, h => by
    rw [List.map_cons, List.nodup_cons] at h
    rw [List.foldl_cons, getElem?_foldl_insert h.2]
    dsimp only
    rw [Std.HashMap.getElem?_insert]
    by_cases heq : text' = text
    · subst heq
      have hnot : (text', i) ∉ l := fun hmem => h.1 (List.mem_map.2 ⟨_, hmem, rfl⟩)
      simp [h.1, hnot, eq_comm]
    · have hne : ¬text = text' := fun h => heq h.symm
      simp [heq, hne]

variable {f : Words.Finder} {v : Vocabulary}

/-- **A text is looked up at its place.** -/
theorem id?_eq_some_iff (hdistinct : v.tokens.toList.Nodup) {text : String} {token : Token} :
    (searching f v).id? text = some token ↔ ∃ i, v.tokens[i]? = some text ∧ token = .ofIndex i := by
  have hindex : ∀ i, (indexOf v)[text]? = some i ↔ v.tokens[i]? = some text := fun i => by
    have hkeys : v.entries.map Prod.fst = v.tokens.toList := List.zipIdx_map_fst 0 _
    rw [indexOf, getElem?_foldl_insert (hkeys ▸ hdistinct), Vocabulary.mem_entries]
    simp
  rw [id?, Option.map_eq_some_iff]
  constructor
  · rintro ⟨i, hi, rfl⟩
    exact ⟨i, (hindex i).1 hi, rfl⟩
  · rintro ⟨i, hi, rfl⟩
    exact ⟨i, (hindex i).2 hi, rfl⟩

/-! ## What tokens spell -/

/-- **The tokens spell the bytes.** -/
def Spells (t : Tokenizer) (tokens : List Token) (bytes : List UInt8) : Prop := tokens.flatMap t.tokenBytes = bytes

namespace Spells

variable {t : Tokenizer} {xs ys : List Token} {a b : List UInt8}

theorem nil : t.Spells [] [] := rfl

theorem append (hx : t.Spells xs a) (hy : t.Spells ys b) : t.Spells (xs ++ ys) (a ++ b) := by
  rw [Spells, List.flatMap_append, hx, hy]

theorem flatMap {α : Type} {f : α → List Token} {g : α → List UInt8} : ∀ {l : List α}, (∀ x ∈ l, t.Spells (f x) (g x)) →
    t.Spells (l.flatMap f) (l.flatMap g)
  | [], _ => nil
  | x :: l, h => by
    obtain ⟨hx, hl⟩ := List.forall_mem_cons.1 h
    exact hx.append (flatMap hl)

end Spells

theorem spells_token (hids : v.size ≤ 2 ^ 31) {i : Nat} {text : String} (hi : v.tokens[i]? = some text) :
    (searching f v).Spells [.ofIndex i] (if v.isSpecialAt i then Utf8.ofString text
      else text.toList.flatMap fun c => match Symbols.toByte? c with
        | some b => [b]
        | none => String.utf8EncodeChar c) := by
  have hlt := Vocabulary.lt_size_of_getElem? hi
  have htoken : (searching f v).token? (.ofIndex i) = some text := (Vocabulary.token?_ofIndex hids hlt).trans hi
  rw [Spells, List.flatMap_singleton, tokenBytes, htoken, ← Vocabulary.type_ofIndex hids hlt]
  rfl

theorem spells_special (hids : v.size ≤ 2 ^ 31) {i : Nat} {text : String} (hi : v.tokens[i]? = some text)
    (hspecial : v.isSpecialAt i = true) : (searching f v).Spells [.ofIndex i] (Utf8.ofString text) := by
  have h := spells_token (f := f) hids hi
  rwa [if_pos hspecial] at h

theorem flatMap_toByte?_symbols (bytes : List UInt8) : (bytes.map Symbols.ofByte).flatMap (fun c =>
    match Symbols.toByte? c with
      | some b => [b]
      | none => String.utf8EncodeChar c) = bytes := by
  induction bytes with
  | nil => rfl
  | cons b bytes ih => rw [List.map_cons, List.flatMap_cons, ih, Symbols.toByte?_ofByte]; rfl

theorem spells_symbols (hids : v.size ≤ 2 ^ 31) {i : Nat} {text : String} (hi : v.tokens[i]? = some text)
    (hnormal : v.isSpecialAt i = false) {bytes : List UInt8}
    (hsymbols : text.toList = bytes.map Symbols.ofByte) : (searching f v).Spells [.ofIndex i] bytes := by
  have h := spells_token (f := f) hids hi
  rwa [if_neg (by rw [hnormal]; exact Bool.false_ne_true), hsymbols, flatMap_toByte?_symbols] at h

/-! ## Words -/

theorem flatMap_toList_symbols (word : List Char) :
    (symbols word).flatMap String.toList = (Utf8.encode word).map Symbols.ofByte := by
  rw [symbols, List.flatMap_map]
  simp only [String.toList_singleton, List.map_eq_flatMap]

section

variable (hids : v.size ≤ 2 ^ 31) (hdistinct : v.tokens.toList.Nodup)

include hids hdistinct

theorem spells_symbol {b : UInt8} (hb : v.HasSymbol b) :
    (searching f v).Spells ((searching f v).id? (String.singleton (Symbols.ofByte b))).toList [b] := by
  obtain ⟨i, hi, hnormal⟩ := hb
  have hid := (id?_eq_some_iff (f := f) hdistinct).2 ⟨i, hi, rfl⟩
  rw [hid]
  exact spells_symbols hids hi hnormal (by simp)

/-- **A piece of symbols spells their bytes**, unless it is a special token. -/
theorem spells_encodePiece {piece : String} {bytes : List UInt8}
    (hsymbols : piece.toList = bytes.map Symbols.ofByte) (hcovered : ∀ b ∈ bytes, v.HasSymbol b)
    (hplain : ∀ i, v.tokens[i]? = some piece → piece ≠ "" → v.isSpecialAt i = false) :
    (searching f v).Spells ((searching f v).encodePiece piece) bytes := by
  unfold encodePiece
  cases hid : (searching f v).id? piece with
  | some token =>
    obtain ⟨i, hi, rfl⟩ := (id?_eq_some_iff hdistinct).1 hid
    cases hspecial : v.isSpecialAt i with
    | false => exact spells_symbols hids hi hspecial hsymbols
    | true =>
      -- then it is the empty piece, which spells nothing either way
      have hempty : piece = "" := Decidable.byContradiction fun hne => by
        rw [hplain i hi hne] at hspecial
        cases hspecial
      have hnone : bytes = [] := by
        rw [hempty] at hsymbols
        exact List.map_eq_nil_iff.1 hsymbols.symm
      have h := spells_special (f := f) hids hi hspecial
      rw [hempty, Utf8.ofString_eq_encode] at h
      rw [hnone]
      exact h
  | none =>
    dsimp only
    rw [hsymbols, List.filterMap_map, List.filterMap_eq_flatMap_toList]
    have hsplit := Spells.flatMap (t := searching f v) (g := fun b => [b]) fun b hb =>
    spells_symbol hids hdistinct (hcovered b hb)
    rwa [List.flatMap_singleton'] at hsplit

theorem spells_pieces : ∀ {pieces : List String} {bytes : List UInt8},
    pieces.flatMap String.toList = bytes.map Symbols.ofByte → (∀ b ∈ bytes, v.HasSymbol b) →
    (∀ piece ∈ pieces, ∀ i, v.tokens[i]? = some piece → piece ≠ "" → v.isSpecialAt i = false) →
    (searching f v).Spells (pieces.flatMap (searching f v).encodePiece) bytes
  | [], bytes, hsymbols, _, _ => by
    rw [List.map_eq_nil_iff.1 hsymbols.symm]
    exact .nil
  | piece :: pieces, bytes, hsymbols, hcovered, hplain => by
    rw [List.flatMap_cons] at hsymbols
    obtain ⟨front, rest, rfl, hfront, hrest⟩ := List.map_eq_append_iff.1 hsymbols.symm
    obtain ⟨hpiece, hpieces⟩ := List.forall_mem_cons.1 hplain
    obtain ⟨hcfront, hcrest⟩ := List.forall_mem_append.1 hcovered
    rw [List.flatMap_cons]
    exact (spells_encodePiece hids hdistinct hfront.symm hcfront hpiece).append
      (spells_pieces hrest.symm hcrest hpieces)

end

/-- **No special text stands in the text.** -/
def Plain (v : Vocabulary) (text : List Char) : Prop := ∀ p ∈ (Specials.ofVocabulary v).list, ¬p.1 <:+: text

theorem Plain.of_infix {word text : List Char} (h : Plain v text) (hword : word <:+: text) : Plain v word :=
  fun p hp hstands => h p hp (hstands.trans hword)

/-- **A piece of a word without special text is no special token.** -/
theorem isSpecialAt_of_piece {ranks : Merge.Ranks} (hspecials : v.PrintableSpecials) {word : List Char}
    (hplain : Plain v word) {piece : String} (hpiece : piece ∈ Merge.all ranks (symbols word)) {i : Nat}
    (hi : v.tokens[i]? = some piece) (hne : piece ≠ "") : v.isSpecialAt i = false := by
  cases hspecial : v.isSpecialAt i with
  | false => rfl
  | true =>
    have hprintable : ∀ c ∈ piece.toList, Symbols.Printable c := by
      apply Vocabulary.printable_of_bytes
      rw [← Utf8.ofString_eq_encode]
      exact hspecials i piece hi hspecial
    have hchars : piece.toList ≠ [] := fun h => hne (String.toList_eq_nil_iff.1 h)
    have hmem : (piece.toList, Token.ofIndex i) ∈ (Specials.ofVocabulary v).list :=
      Vocabulary.mem_list_specials.2 ⟨i, ⟨hchars, by rw [String.ofList_toList]; exact hi,
        Vocabulary.isSpecialAt_iff.1 hspecial⟩, rfl⟩
    have hstands : piece.toList <:+: (Utf8.encode word).map Symbols.ofByte := by
      have h := List.infix_of_mem_flatten (List.mem_map_of_mem (f := String.toList) hpiece)
      rwa [← List.flatMap_def, Merge.flatMap_toList_all, flatMap_toList_symbols] at h
    exact absurd (Symbols.infix_of_infix_symbols hprintable hchars hstands) (hplain _ hmem)

section

variable (hf : Words.Faithful f) (hids : v.size ≤ 2 ^ 31) (hdistinct : v.tokens.toList.Nodup)
  (hspecials : v.PrintableSpecials)

include hids hdistinct hspecials in
theorem spells_encodeWord {word : List Char} (hplain : Plain v word) (hcovered : ∀ b ∈ Utf8.encode word, v.HasSymbol b) :
    (searching f v).Spells ((searching f v).encodeWord word) (Utf8.encode word) := by
  unfold encodeWord
  apply spells_pieces hids hdistinct
  · rw [Merge.flatMap_toList_all, flatMap_toList_symbols]
  · exact hcovered
  · intro piece hpiece i hi hne
    exact isSpecialAt_of_piece hspecials hplain hpiece hi hne

include hf hids hdistinct hspecials

/-- **A text without special text is spelled by its words**, if the search for them is not given up. -/
theorem spells_encodePlain {text : List Char} (hok : ∀ why, .error why ∉ f text) (hplain : Plain v text)
    (hcovered : ∀ b ∈ Utf8.encode text, v.HasSymbol b) :
    (searching f v).Spells ((searching f v).encodePlain text) (Utf8.encode text) := by
  obtain ⟨words, hitems, rfl⟩ := Words.exists_words (hf text) hok
  have hencode : (searching f v).encodePlain words.flatten = words.flatMap (searching f v).encodeWord := by
    have hsearch : (searching f v).find words.flatten = words.map .ok := hitems
    rw [encodePlain, hsearch, List.flatMap_map]
  rw [hencode]
  rw [Utf8.encode_flatten] at hcovered ⊢
  apply Spells.flatMap
  intro word hword
  exact spells_encodeWord hids hdistinct hspecials (hplain.of_infix (List.infix_of_mem_flatten hword)) fun b hb =>
    hcovered b (List.mem_flatMap.2 ⟨word, hword, hb⟩)

/-! ## Texts -/

/-- What is outside special tokens is spelled by its words, and special tokens spell their texts. -/
theorem spells_encodeChars (text : List Char)
    (hok : ∀ stretch ∈ (Specials.ofVocabulary v).stretches text, ∀ why, .error why ∉ f stretch)
    (hcovered : ∀ b ∈ Utf8.encode ((Specials.ofVocabulary v).outside text), v.HasSymbol b) :
    (searching f v).Spells ((searching f v).encodeChars text) (Utf8.encode text) := by
  cases hnext : (Specials.ofVocabulary v).next? text with
  | none =>
    rw [Specials.outside, Specials.stretches_of_none hnext, List.flatten_singleton] at hcovered
    rw [Specials.stretches_of_none hnext] at hok
    rw [encodeChars_of_none hnext]
    exact spells_encodePlain hf hids hdistinct hspecials (hok text List.mem_cons_self)
      (fun p hp => Specials.not_infix_of_next?_eq_none hp hnext) hcovered
  | some found =>
    obtain ⟨before, token, after⟩ := found
    have hlt := (Specials.ofVocabulary v).length_next?_lt text hnext
    rw [Specials.outside, Specials.stretches_of_some hnext, List.flatten_cons, Utf8.encode_append] at hcovered
    rw [Specials.stretches_of_some hnext] at hok
    obtain ⟨hbefore, hafter⟩ := List.forall_mem_append.1 hcovered
    obtain ⟨hokBefore, hokAfter⟩ := List.forall_mem_cons.1 hok
    obtain ⟨x, hmem, htext, -⟩ := Specials.of_next? hnext
    obtain ⟨i, hi, rfl⟩ := Vocabulary.mem_list_specials.1 hmem
    have hfront := spells_encodePlain hf hids hdistinct hspecials hokBefore
      (fun p hp => Specials.not_infix_of_next? hp hnext) hbefore
    have hmiddle := spells_special (f := f) hids hi.text_eq (Vocabulary.isSpecialAt_iff.2 hi.isSpecial)
    have hrest := spells_encodeChars after hokAfter hafter
    have hbytes : Utf8.encode text = Utf8.encode before ++ (Utf8.encode x ++ Utf8.encode after) := by
      rw [htext, List.append_assoc, Utf8.encode_append, Utf8.encode_append]
    rw [Utf8.ofString_eq_encode, String.toList_ofList] at hmiddle
    rw [encodeChars_of_some hnext, hbytes]
    exact hfront.append (hmiddle.append hrest)
termination_by text.length

end

/-- **Encoding loses nothing of a covered text** on which no search for words is given up: its tokens spell its bytes, so
they are read back as the text.  All of them are in the vocabulary, whatever is given up.  A vocabulary has no more
tokens than there are numbers for them. -/
theorem tokenBytes_encode (f : Words.Finder) (v : Vocabulary) (text : String) (hf : Words.Faithful f)
    (hids : v.size ≤ 2 ^ 31) (hcovers : v.Covers text) :
    (∀ token ∈ (searching f v).encode text, token.isBelow v.size = true) ∧
      ((∀ stretch ∈ (Specials.ofVocabulary v).stretches text.toList, ∀ why, .error why ∉ f stretch) →
        ((searching f v).encode text).flatMap (searching f v).tokenBytes = Utf8.ofString text ∧
          (searching f v).decode ((searching f v).encode text) = text) := by
  refine ⟨isBelow_encode hids text, fun hok => ?_⟩
  have hspells := spells_encodeChars hf hids hcovers.distinct hcovers.printable text.toList hok hcovers.symbols
  rw [Spells, ← Utf8.ofString_eq_encode] at hspells
  refine ⟨hspells, ?_⟩
  rw [decode, encode, hspells, Utf8.toStringLossy_ofString]

/-- Two letters, one merge of them, and a control token. -/
def twoLetters : Vocabulary :=
  ((Vocabulary.ofTokens ["a", "b", "ab", "<s>"]).withTypes [.normal, .normal, .normal, .control]).withMerges ["a b"]

theorem stretches_twoLetters :
    (Specials.ofVocabulary twoLetters).stretches "ab<s>ba".toList = [['a', 'b'], ['b', 'a']] := by
  decide +kernel

theorem covers_twoLetters : twoLetters.Covers "ab<s>ba" where
  distinct := by decide
  printable := by
    intro i text hi hspecial
    have hlt : i < 4 := Vocabulary.lt_size_of_getElem? hi
    match i, hlt with
    | 0, _ | 1, _ | 2, _ => cases hspecial
    | 3, _ =>
      cases hi
      rw [Utf8.ofString_eq_encode]
      decide +kernel
  symbols := by
    intro b hb
    rw [Specials.outside, stretches_twoLetters] at hb
    have hbytes : Utf8.encode [['a', 'b'], ['b', 'a']].flatten = [0x61, 0x62, 0x62, 0x61] := by decide +kernel
    rw [hbytes] at hb
    simp only [List.mem_cons, List.not_mem_nil, or_false] at hb
    rcases hb with rfl | rfl | rfl | rfl
    · exact ⟨0, by decide +kernel⟩
    · exact ⟨1, by decide +kernel⟩
    · exact ⟨1, by decide +kernel⟩
    · exact ⟨0, by decide +kernel⟩

theorem tokenBytes_encode_twoLetters :
    (∀ token ∈ (ofVocabulary twoLetters).encode "ab<s>ba", token.isBelow twoLetters.size = true) ∧
      ((ofVocabulary twoLetters).encode "ab<s>ba").flatMap (ofVocabulary twoLetters).tokenBytes =
        Utf8.ofString "ab<s>ba" ∧
      (ofVocabulary twoLetters).decode ((ofVocabulary twoLetters).encode "ab<s>ba") = "ab<s>ba" := by
  obtain ⟨hbelow, hread⟩ :=
    tokenBytes_encode Words.find twoLetters "ab<s>ba" Words.faithful_find (by decide) covers_twoLetters
  refine ⟨hbelow, hread fun stretch hstretch => Words.ok_of_find ?_⟩
  rw [stretches_twoLetters] at hstretch
  simp only [List.mem_cons, List.not_mem_nil, or_false] at hstretch
  rcases hstretch with rfl | rfl <;> decide

/-! ### Texts that are lost -/

/-- Without merges and special tokens the tokens of a text are those of its symbols. -/
theorem encode_of_find (hmerges : v.merges = []) (hspecials : v.specials = []) {text : String}
    {words : List (List Char)} (hwords : f text.toList = words.map .ok) : (searching f v).encode text =
      words.flatMap fun word => (symbols word).flatMap (searching f v).encodePiece := by
  have hsearch : (searching f v).find text.toList = words.map .ok := hwords
  have hranks : (searching f v).ranks = ∅ := by
    change Merge.ranksOf v.merges = ∅
    rw [hmerges]
    rfl
  rw [encode, encodeChars_of_none (Specials.next?_of_specials hspecials _), encodePlain, hsearch, List.flatMap_map]
  simp only [encodeWord, hranks, Merge.all_empty]

theorem isSpecialAt_ofTokens (l : List String) (i : Nat) : (Vocabulary.ofTokens l).isSpecialAt i = false := by
  rw [Vocabulary.isSpecialAt, Vocabulary.ofTokens]
  by_cases hi : i < l.length <;> simp [hi, TokenType.isSpecial]

theorem specials_ofTokens (l : List String) : (Vocabulary.ofTokens l).specials = [] := by
  simp [Vocabulary.specials, isSpecialAt_ofTokens]

/-- Normal tokens cover a text of their symbols. -/
theorem covers_ofTokens {l : List String} (hdistinct : l.Nodup) {text : String}
    (hsymbols : ∀ b ∈ Utf8.encode text.toList, ∃ i : Nat, l[i]? = some (String.singleton (Symbols.ofByte b))) :
    (Vocabulary.ofTokens l).Covers text where
  distinct := hdistinct
  printable := by
    intro i text hi hspecial
    rw [isSpecialAt_ofTokens] at hspecial
    cases hspecial
  symbols := by
    intro b hb
    rw [Specials.outside, Specials.stretches_of_none (Specials.next?_of_specials (specials_ofTokens l) _),
      List.flatten_singleton] at hb
    obtain ⟨i, hi⟩ := hsymbols b hb
    exact ⟨i, by simpa [Vocabulary.ofTokens] using hi, isSpecialAt_ofTokens l i⟩

/-- A word of one letter, as often as it is said. -/
def longWord (n : Nat) : String := String.ofList (List.replicate n 'a')

theorem eq_of_mem_longWord {n : Nat} {b : UInt8} (h : b ∈ Utf8.encode (longWord n).toList) : b = 0x61 := by
  rw [longWord, String.toList_ofList] at h
  obtain ⟨c, hc, hb⟩ := List.mem_flatMap.1 h
  rw [List.eq_of_mem_replicate hc] at hb
  exact List.mem_singleton.1 hb

/-- **A word on which the search is given up is lost.** -/
theorem encode_longWord (hspecials : v.specials = []) {n : Nat} (h : Words.maxBranches < n + 2) :
    (ofVocabulary v).encode (longWord n) = [] := by
  have hsearch : (ofVocabulary v).find (longWord n).toList = [.error .stackOverflow] := by
    rw [longWord, String.toList_ofList]
    exact Words.find_replicate rfl h
  rw [encode, encodeChars_of_none (Specials.next?_of_specials hspecials _), encodePlain, hsearch]
  rfl

/-- Texts of one letter, all of different length and none a single letter, and behind them another letter. -/
def crowdedTexts (n : Nat) : List String :=
  (List.range n).map (fun i => String.ofList (List.replicate (i + 2) 'b')) ++ ["a"]

def crowded (n : Nat) : Vocabulary := .ofTokens (crowdedTexts n)

theorem nodup_crowdedTexts (n : Nat) : (crowdedTexts n).Nodup := by
  have hlength : ∀ i, (String.ofList (List.replicate (i + 2) 'b')).length = i + 2 := fun i => by
    rw [String.length_ofList, List.length_replicate]
  refine List.nodup_append.2 ⟨List.Nodup.map (fun i j h => ?_) List.nodup_range, List.nodup_singleton _,
    fun x hx y hy heq => ?_⟩
  · have hsame := congrArg String.length h
    rw [hlength, hlength] at hsame
    exact Nat.add_right_cancel hsame
  · obtain ⟨i, -, rfl⟩ := List.mem_map.1 hx
    rw [List.mem_singleton.1 hy] at heq
    have hsame := congrArg String.length heq
    rw [hlength] at hsame
    exact absurd hsame (Nat.succ_ne_zero i ∘ Nat.succ.inj)

theorem getElem?_crowdedTexts (n : Nat) : (crowdedTexts n)[n]? = some "a" := by
  simp [crowdedTexts]

theorem size_crowded (n : Nat) : (crowded n).size = n + 1 := by
  simp [crowded, crowdedTexts, Vocabulary.size, Vocabulary.ofTokens]

theorem covers_crowded (n : Nat) : (crowded n).Covers "a" :=
  covers_ofTokens (nodup_crowdedTexts n) fun b hb => ⟨n, by
    rw [eq_of_mem_longWord (n := 1) hb, getElem?_crowdedTexts]
    rfl⟩

/-- The letter behind the others has the number of its place, as far as there are numbers. -/
theorem encode_crowded (n : Nat) : (ofVocabulary (crowded n)).encode "a" = [.ofIndex n] := by
  have hwords : Words.find "a".toList = [['a']].map .ok := by decide +kernel
  have hsymbols : symbols ['a'] = ["a"] := by decide +kernel
  have hid : (ofVocabulary (crowded n)).id? "a" = some (.ofIndex n) := by
    refine (id?_eq_some_iff (nodup_crowdedTexts n)).2 ⟨n, ?_, rfl⟩
    simpa [crowded, Vocabulary.ofTokens] using getElem?_crowdedTexts n
  rw [ofVocabulary, encode_of_find (v := crowded n) rfl (specials_ofTokens _) hwords]
  simp [hsymbols, encodePiece, hid]

/-- **A covered text need not be read back**: a word of a million letters has no tokens, though its letter is a token,
and a token behind the first 2³¹ is given a number that is outside the vocabulary. -/
theorem covered_not_read_back :
    ((Vocabulary.ofTokens ["a"]).Covers (longWord 1000000) ∧
      (ofVocabulary (.ofTokens ["a"])).decode ((ofVocabulary (.ofTokens ["a"])).encode (longWord 1000000)) ≠
        longWord 1000000) ∧
    (crowded (2 ^ 31)).Covers "a" ∧
      ∃ token ∈ (ofVocabulary (crowded (2 ^ 31))).encode "a", token.isBelow (crowded (2 ^ 31)).size = false := by
  refine ⟨⟨covers_ofTokens (List.nodup_singleton _) fun b hb => ⟨0, ?_⟩, fun hread => ?_⟩, covers_crowded _,
    .ofIndex (2 ^ 31), ?_, ?_⟩
  · rw [eq_of_mem_longWord hb]
    rfl
  · rw [encode_longWord (specials_ofTokens _) (by decide)] at hread
    have hlength : (longWord 1000000).length = 1000000 := by
      rw [longWord, String.length_ofList, List.length_replicate]
    rw [← hread] at hlength
    exact absurd hlength (by simp [decode, Utf8.toStringLossy])
  · rw [encode_crowded]
    exact List.mem_cons_self
  · rw [size_crowded]
    decide

end Tokenizer
end CausalLM
