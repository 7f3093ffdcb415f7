import CausalLM.Proofs.Text.Boundaries
import CausalLM.Proofs.Tokenizer.RoundTrip
/-!
# Proofs.Tokenizer.Segments — a text cut at its special tokens

A text is cut at the first special text in it, the longest of those that stand there, and what follows is cut again
(`Segmented`).  There is one such way to cut a text (`Segmented.unique`).  The search for the next special token finds
where the cut is (`leads_of_next?`), because it takes what starts first and of that the longest.  So encoding follows
the cuts (`encode_segmented`).
-/
namespace CausalLM

/-! ## Texts of special tokens -/

namespace Vocabulary

/-- The text of a special token. -/
def IsSpecial (v : Vocabulary) (x : List Char) : Prop := ∃ i, v.SpecialAt x i

/-- **The token of a special text**: of several the lowest. -/
structure StandsFor (v : Vocabulary) (token : Token) (x : List Char) : Prop where
  place : ∃ i, v.SpecialAt x i ∧ token = .ofIndex i
  lowest : ∀ i, v.SpecialAt x i → token.toInt ≤ (Token.ofIndex i).toInt

/-- **The first special text in a text**, with what stands before and after it.  Wherever else the bytes of a special
text stand it is no earlier, and where they stand at the same place they are no longer. -/
structure Leads (v : Vocabulary) (before special after : List Char) : Prop where
  isSpecial : v.IsSpecial special
  leftmost : ∀ x, v.IsSpecial x → ∀ a b, Utf8.encode (before ++ special ++ after) = a ++ Utf8.encode x ++ b →
    (Utf8.encode before).length ≤ a.length
  longest : ∀ x, v.IsSpecial x → ∀ b,
    Utf8.encode (before ++ special ++ after) = Utf8.encode before ++ Utf8.encode x ++ b →
      (Utf8.encode x).length ≤ (Utf8.encode special).length

end Vocabulary

/-- A stretch of a text without special text, and the special token behind it. -/
structure Segment where
  plain : List Char
  special : List Char
  token : Token

/-- **A text cut at its special tokens**: the segments that end in one, and the rest, in which there is none. -/
inductive Vocabulary.Segmented (v : Vocabulary) : List Char → List Segment → List Char → Prop
  | rest {text : List Char} (none : ∀ x, v.IsSpecial x → ¬x <:+: text) : Segmented v text [] text
  | cut {before special after last : List Char} {token : Token} {segments : List Segment}
      (first : v.Leads before special after) (stands : v.StandsFor token special)
      (others : Segmented v after segments last) :
      Segmented v (before ++ special ++ after) (⟨before, special, token⟩ :: segments) last

/-! ## The search for the next one -/

namespace Vocabulary

variable {v : Vocabulary}

/-- **What the search finds is the first special text**, with the token that stands for it. -/
theorem leads_of_next? {text before after : List Char} {token : Token}
    (h : (Specials.ofVocabulary v).next? text = some (before, token, after)) :
    ∃ special, text = before ++ special ++ after ∧ v.Leads before special after ∧ v.StandsFor token special := by
  obtain ⟨special, hmem, rfl, hfirst, hbest⟩ := Specials.of_next? h
  have hplace := mem_list_specials.1 hmem
  have hbest := hbest (Specials.pairwise_ofVocabulary v)
  refine ⟨special, rfl, ⟨hplace.imp fun _ h => h.1, fun x ⟨i, hx⟩ a b hoccurs => ?_, fun x ⟨i, hx⟩ b hoccurs => ?_⟩,
    hplace, fun i hi => (hbest _ (mem_list_specials.2 ⟨i, hi, rfl⟩) after rfl).toInt_le rfl⟩
  · -- the occurrence is one of characters, and the search found none that is earlier
    rw [List.append_assoc a] at hoccurs
    obtain ⟨a, b, rfl, rfl, hchars⟩ := Utf8.exists_of_encode_eq_append hx.ne_nil hoccurs
    have hle := hfirst _ (mem_list_specials.2 ⟨i, hx, rfl⟩) a b (hchars.trans (List.append_assoc a x b).symm)
    rw [List.append_assoc] at hchars
    obtain ⟨more, rfl⟩ := List.prefix_of_prefix_length_le (List.prefix_append before _)
      (hchars ▸ List.prefix_append a _) hle
    rw [Utf8.encode_append, List.length_append]
    exact Nat.le_add_right _ _
  · rw [List.append_assoc, List.append_assoc, Utf8.encode_append, List.append_cancel_left_eq] at hoccurs
    obtain ⟨b, -, hchars⟩ := Utf8.exists_of_encode_eq_front hoccurs
    refine (hbest _ (mem_list_specials.2 ⟨i, hx, rfl⟩) b ?_).length_le
    rw [List.append_assoc, hchars, List.append_assoc]

/-! ## One way to cut -/

theorem Leads.unique {before special after before' special' after' : List Char} (h : v.Leads before special after)
    (h' : v.Leads before' special' after') (htext : before ++ special ++ after = before' ++ special' ++ after') :
    before = before' ∧ special = special' ∧ after = after' := by
  have hbytes : Utf8.encode (before ++ special ++ after) =
      Utf8.encode before ++ Utf8.encode special ++ Utf8.encode after := by
    rw [Utf8.encode_append, Utf8.encode_append]
  have hbytes' : Utf8.encode (before' ++ special' ++ after') =
      Utf8.encode before' ++ Utf8.encode special' ++ Utf8.encode after' := by
    rw [Utf8.encode_append, Utf8.encode_append]
  have hle := h.leftmost special' h'.isSpecial _ _ (htext ▸ hbytes')
  have hle' := h'.leftmost special h.isSpecial _ _ (htext ▸ hbytes)
  have hboth : Utf8.encode before ++ (Utf8.encode special ++ Utf8.encode after) =
      Utf8.encode before' ++ (Utf8.encode special' ++ Utf8.encode after') := by
    rw [← List.append_assoc, ← List.append_assoc, ← hbytes, ← hbytes', htext]
  obtain ⟨hbefore, hrest⟩ := List.append_inj hboth (Nat.le_antisymm hle hle')
  obtain rfl := Utf8.encode_injective hbefore
  have hlong := h.longest special' h'.isSpecial _ (htext ▸ hbytes')
  have hlong' := h'.longest special h.isSpecial _ (htext ▸ hbytes)
  obtain ⟨hspecial, hafter⟩ := List.append_inj hrest (Nat.le_antisymm hlong' hlong)
  exact ⟨rfl, Utf8.encode_injective hspecial, Utf8.encode_injective hafter⟩

theorem StandsFor.unique {x : List Char} {token token' : Token} (h : v.StandsFor token x) (h' : v.StandsFor token' x) :
    token = token' := by
  obtain ⟨i, hi, rfl⟩ := h.place
  obtain ⟨j, hj, rfl⟩ := h'.place
  have hsame : (Token.ofIndex i).toInt = (Token.ofIndex j).toInt := Int.le_antisymm (h.lowest j hj) (h'.lowest i hi)
  exact congrArg Token.mk (Int32.toInt_inj.1 hsame)

/-- **There is one way to cut a text at its special tokens.** -/
theorem Segmented.unique {text last last' : List Char} {segments segments' : List Segment}
    (h : v.Segmented text segments last) (h' : v.Segmented text segments' last') :
    segments' = segments ∧ last' = last := by
  induction h generalizing segments' with
  | rest hnone =>
    cases h' with
    | rest => exact ⟨rfl, rfl⟩
    | cut first => exact absurd (List.infix_append _ _ _) (hnone _ first.isSpecial)
  | @cut before special after last token segments first stands others ih =>
    generalize htext : before ++ special ++ after = text at h'
    cases h' with
    | rest hnone => exact absurd (htext ▸ List.infix_append _ _ _) (hnone _ first.isSpecial)
    | cut first' stands' others' =>
      obtain ⟨rfl, rfl, rfl⟩ := first.unique first' htext
      obtain rfl := stands.unique stands'
      obtain ⟨rfl, rfl⟩ := ih others'
      exact ⟨rfl, rfl⟩

/-! ## What the pieces are -/

variable {text last : List Char} {segments : List Segment}

theorem Segmented.text_eq (h : v.Segmented text segments last) :
    text = segments.flatMap (fun s => s.plain ++ s.special) ++ last := by
  induction h with
  | rest => rfl
  | @cut before special after last token segments first stands others ih =>
    rw [List.flatMap_cons, List.append_assoc (before ++ special), ← ih]

theorem Segmented.length_le (h : v.Segmented text segments last) : segments.length ≤ text.length := by
  induction h with
  | rest => exact Nat.zero_le _
  | cut first stands others ih =>
    obtain ⟨i, hi⟩ := first.isSpecial
    have hpos := List.length_pos_iff.2 hi.ne_nil
    simp only [List.length_append, List.length_cons]
    omega

/-- **No special text stands in front of the first one.** -/
theorem Leads.not_within {before special after x : List Char} (h : v.Leads before special after) (hx : v.IsSpecial x) :
    ¬x <:+: before := by
  rintro ⟨front, back, rfl⟩
  obtain ⟨i, hi⟩ := hx
  have hle := h.leftmost x ⟨i, hi⟩ (Utf8.encode front) (Utf8.encode (back ++ special ++ after)) (by
    simp only [Utf8.encode_append, List.append_assoc])
  have hpos : 0 < (Utf8.encode x).length :=
    List.length_pos_iff.2 (Utf8.encode_ne_nil hi.ne_nil)
  simp only [Utf8.encode_append, List.length_append] at hle
  omega

theorem Segmented.not_within (h : v.Segmented text segments last) {x : List Char} (hx : v.IsSpecial x) :
    ∀ plain ∈ segments.map Segment.plain ++ [last], ¬x <:+: plain := by
  induction h with
  | rest hnone =>
    intro plain hplain
    rw [List.map_nil, List.nil_append, List.mem_singleton] at hplain
    exact hplain ▸ hnone x hx
  | cut first stands others ih =>
    intro plain hplain
    rcases List.mem_cons.1 hplain with rfl | hplain
    · exact first.not_within hx
    · exact ih plain hplain

end Vocabulary

/-! ## Encoding -/

namespace Tokenizer

variable {v : Vocabulary}

/-- **Encoding follows the cuts.** -/
theorem exists_segmented (text : List Char) : ∃ segments last, v.Segmented text segments last ∧
    (ofVocabulary v).encodeChars text =
      segments.flatMap (fun s => (ofVocabulary v).encodePlain s.plain ++ [s.token]) ++
        (ofVocabulary v).encodePlain last := by
  cases hnext : (ofVocabulary v).specials.next? text with
  | none =>
    refine ⟨[], text, .rest fun x ⟨i, hx⟩ => ?_, encodeChars_of_none hnext⟩
    exact Specials.not_infix_of_next?_eq_none (Vocabulary.mem_list_specials.2 ⟨i, hx, rfl⟩) hnext
  | some found =>
    obtain ⟨before, token, after⟩ := found
    have hlt := (ofVocabulary v).specials.length_next?_lt text hnext
    obtain ⟨special, rfl, hleads, hstands⟩ := Vocabulary.leads_of_next? hnext
    obtain ⟨segments, last, hsegmented, hencode⟩ := exists_segmented after
    refine ⟨_, last, .cut hleads hstands hsegmented, ?_⟩
    rw [encodeChars_of_some hnext, hencode, List.flatMap_cons]
    simp only [List.append_assoc, List.cons_append, List.nil_append]
termination_by text.length

/-- **A text is encoded between its special tokens.**  For every vocabulary a text is cut, in one way, at the first
special text in it, the longest of those that stand there, and so on in what follows.  The pieces are the text, one
after the other; there are no more cuts than characters, and no special text stands in what is between them.  The
bytes of a special text stand among those of any text only between its characters.  And the tokens of the text are
those of the pieces, each special text giving the lowest of its tokens. -/
theorem encode_segmented (v : Vocabulary) (text : String) : ∃ segments last,
    v.Segmented text.toList segments last ∧
    (∀ segments' last', v.Segmented text.toList segments' last' → segments' = segments ∧ last' = last) ∧
    text.toList = segments.flatMap (fun s => s.plain ++ s.special) ++ last ∧
    segments.length ≤ text.toList.length ∧
    (∀ x, v.IsSpecial x → ∀ plain ∈ segments.map Segment.plain ++ [last], ¬x <:+: plain) ∧
    (∀ x, v.IsSpecial x → ∀ (stretch : List Char) (a b : List UInt8), Utf8.encode stretch = a ++ Utf8.encode x ++ b →
      ∃ a' b', a = Utf8.encode a' ∧ b = Utf8.encode b' ∧ stretch = a' ++ x ++ b') ∧
    (ofVocabulary v).encode text =
      segments.flatMap (fun s => (ofVocabulary v).encodePlain s.plain ++ [s.token]) ++
        (ofVocabulary v).encodePlain last := by
  obtain ⟨segments, last, hsegmented, hencode⟩ := exists_segmented (v := v) text.toList
  refine ⟨segments, last, hsegmented, fun _ _ h => hsegmented.unique h, hsegmented.text_eq, hsegmented.length_le,
    fun x hx => hsegmented.not_within hx, fun x ⟨i, hx⟩ stretch a b hoccurs => ?_, hencode⟩
  rw [List.append_assoc] at hoccurs
  obtain ⟨a', b', ha, hb, hstretch⟩ := Utf8.exists_of_encode_eq_append hx.ne_nil hoccurs
  exact ⟨a', b', ha, hb, by rw [hstretch, List.append_assoc]⟩

/-- Two special texts, one of them the beginning of the other and the text of two tokens. -/
def nested : Vocabulary := (Vocabulary.ofTokens ["<s>", "<s>x", "<s>"]).withTypes [.control, .userDefined, .control]

/-- Where both stand the longer one is cut out, and of two tokens the lower one is given. -/
theorem encode_segmented_nested :
    nested.Segmented "<s>x<s>".toList [⟨[], "<s>x".toList, .ofIndex 1⟩, ⟨[], "<s>".toList, .ofIndex 0⟩] [] ∧
      (ofVocabulary nested).encode "<s>x<s>" = [.ofIndex 1, .ofIndex 0] := by
  have hlist : nested.specials = [("<s>", .ofIndex 0), ("<s>x", .ofIndex 1), ("<s>", .ofIndex 2)] := by decide +kernel
  have hsorted : (Specials.ofVocabulary nested).list =
      [("<s>x".toList, .ofIndex 1), ("<s>".toList, .ofIndex 0), ("<s>".toList, .ofIndex 2)] := by
    have hlonger : Specials.precedes ("<s>", .ofIndex 0) ("<s>x", .ofIndex 1) = false := by decide +kernel
    have hlonger' : Specials.precedes ("<s>x", .ofIndex 1) ("<s>", .ofIndex 2) = true := by decide +kernel
    have hlower : Specials.precedes ("<s>", .ofIndex 0) ("<s>", .ofIndex 2) = true := by decide +kernel
    simp [Specials.ofVocabulary, hlist, List.mergeSort, List.MergeSort.Internal.splitInTwo, hlonger, hlonger', hlower]
  have hnext : ∀ text, (Specials.ofVocabulary nested).next? text = Specials.next?
      ⟨[("<s>x".toList, .ofIndex 1), ("<s>".toList, .ofIndex 0), ("<s>".toList, .ofIndex 2)], by decide⟩ text := by
    intro text
    simp only [Specials.next?, Specials.best?, Specials.hits, hsorted]
  have hfirst : (Specials.ofVocabulary nested).next? "<s>x<s>".toList = some ([], .ofIndex 1, "<s>".toList) := by
    rw [hnext]
    decide +kernel
  have hsecond : (Specials.ofVocabulary nested).next? "<s>".toList = some ([], .ofIndex 0, []) := by
    rw [hnext]
    decide +kernel
  obtain ⟨long, hlong, hleads, hstands⟩ := Vocabulary.leads_of_next? hfirst
  obtain ⟨short, hshort, hleads', hstands'⟩ := Vocabulary.leads_of_next? hsecond
  obtain rfl : long = "<s>x".toList :=
    List.append_cancel_right (hlong.symm.trans (show "<s>x<s>".toList = "<s>x".toList ++ "<s>".toList from rfl))
  obtain rfl : short = "<s>".toList := by simpa using hshort.symm
  have hrest : nested.Segmented [] [] [] :=
    .rest fun x hx hinfix => hx.elim fun _ hi => hi.ne_nil (List.infix_nil.1 hinfix)
  have hcut : nested.Segmented "<s>x<s>".toList _ [] := .cut hleads hstands (.cut hleads' hstands' hrest)
  obtain ⟨segments, last, -, hunique, -, -, -, -, hencode⟩ := encode_segmented nested "<s>x<s>"
  obtain ⟨rfl, rfl⟩ := hunique _ _ hcut
  refine ⟨hcut, hencode.trans ?_⟩
  have hnil := encodePlain_ofVocabulary_nil nested
  simp [hnil]

end Tokenizer
end CausalLM
