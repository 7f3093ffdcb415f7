import CausalLM.Tokenizer.Words
/-!
# Proofs.Tokenizer.Words — the words of a text are the text

A faithful search for words gives the matches of the pattern one after the other, and may give up on any of them.  The
pattern matches at the front of every text that is not empty (`length?_pattern`), so no character stands between two
words, and where the search is not given up the words make up the text (`exists_words`).  The engine that counts
branches is faithful (`faithful_find`).  It gives up on a word of a million letters (`find_replicate`), and on no text
that is shorter (`ok_of_find`).
-/
namespace CausalLM

/-! ## Matches in order -/

namespace Pattern

theorem length?_either (p q : Pattern) (s : List Char) :
    (either p q).length? s = (p.length? s).or (q.length? s) := List.head?_append

theorem length?_text (x s : List Char) :
    (text x).length? s = if x.isPrefixOf s then some x.length else none := by
  rw [length?, lengths]
  split <;> rfl

theorem head?_runLengths (k : Char → Bool) (s : List Char) :
    (runLengths k s).head? = if s.head?.any k then some (s.takeWhile k).length else none := by
  induction s with
  | nil => rfl
  | cons c rest ih =>
    rw [runLengths, List.head?_cons, Option.any_some, List.takeWhile_cons]
    cases hc : k c with
    | false => rfl
    | true =>
      rw [if_pos rfl, if_pos rfl, if_pos rfl, List.head?_append, List.head?_map, ih]
      cases rest with
      | nil => rfl
      | cons d rest =>
        rw [List.head?_cons, Option.any_some]
        cases hd : k d with
        | false => simp [hd]
        | true => rfl

theorem length?_optional_nil (c : Char) (q : Pattern) :
    (sequence (optional (text [c])) q).length? [] = q.length? [] := by
  simp [length?, lengths]

/-- What follows is matched after the one character, and then where that is not there. -/
theorem length?_optional_cons (c d : Char) (q : Pattern) (rest : List Char) :
    (sequence (optional (text [c])) q).length? (d :: rest) =
      (if d = c then (q.length? rest).map (1 + ·) else none).or (q.length? (d :: rest)) := by
  have hbegins : [c].isPrefixOf (d :: rest) = (c == d) := by simp [List.isPrefixOf]
  rw [length?, lengths, lengths, lengths, hbegins]
  by_cases hd : d = c
  · subst hd
    simp [length?, List.head?_append]
  · have hne : (c == d) = false := beq_eq_false_iff_ne.2 fun h => hd h.symm
    simp [length?, hne, hd]

/-- **A run that gives back one**: it is matched to its end only where the text ends there. -/
theorem length?_runNotAhead (k : Char → Bool) (s : List Char) :
    (sequence (run k) (notAhead fun c => !k c)).length? s =
      if s.head?.any k then
        if (s.dropWhile k).isEmpty then some (s.takeWhile k).length
        else if (s.takeWhile k).length = 1 then none
        else some ((s.takeWhile k).length - 1)
      else none := by
  induction s with
  | nil => rfl
  | cons c rest ih =>
    rw [List.head?_cons, Option.any_some, List.dropWhile_cons, List.takeWhile_cons]
    cases hc : k c with
    | false => simp [length?, lengths, runLengths, hc]
    | true =>
      have hstep : (sequence (run k) (notAhead fun c => !k c)).lengths (c :: rest) =
          ((sequence (run k) (notAhead fun c => !k c)).lengths rest).map (· + 1) ++
            (if rest.head?.any (fun c => !k c) then [] else [1]) := by
        simp only [lengths, runLengths, hc, if_true, List.flatMap_append, List.flatMap_map, List.map_flatMap,
          List.flatMap_singleton, List.drop_succ_cons, List.drop_zero]
        congr 1
        · refine congrArg (List.flatMap · _) (funext fun n => ?_)
          split <;> simp [Nat.add_right_comm]
        · split <;> rfl
      rw [length?, hstep, List.head?_append, List.head?_map, ← length?, ih]
      cases rest with
      | nil => rfl
      | cons d rest =>
        cases hd : k d with
        | false => simp [hd]
        | true =>
          simp only [List.head?_cons, Option.any_some, hd, List.dropWhile_cons, List.takeWhile_cons, if_true,
            Bool.not_true, Bool.false_eq_true, if_false, List.length_cons]
          generalize (rest.takeWhile k).length = n
          cases (rest.dropWhile k).isEmpty with
          | true => rfl
          | false => cases n <;> rfl

theorem bounds_of_mem_runLengths {k : Char → Bool} {s : List Char} {n : Nat} (h : n ∈ runLengths k s) :
    0 < n ∧ n ≤ s.length := by
  induction s generalizing n with
  | nil => cases h
  | cons c rest ih =>
    rw [runLengths] at h
    split at h
    · rcases List.mem_append.1 h with h | h
      · obtain ⟨m, hm, rfl⟩ := List.mem_map.1 h
        exact ⟨Nat.succ_pos m, Nat.succ_le_succ (ih hm).2⟩
      · rw [List.mem_singleton.1 h, List.length_cons]
        omega
    · cases h

/-- **A match is in the text.** -/
theorem le_of_mem_lengths {p : Pattern} {s : List Char} {n : Nat} (h : n ∈ p.lengths s) : n ≤ s.length := by
  induction p generalizing s n with
  | text x =>
    rw [lengths] at h
    split at h
    · rename_i hx
      rw [List.mem_singleton.1 h]
      exact (List.isPrefixOf_iff_prefix.1 hx).length_le
    · cases h
  | sequence p q ihp ihq =>
    obtain ⟨m, hm, hn⟩ := List.mem_flatMap.1 h
    obtain ⟨l, hl, rfl⟩ := List.mem_map.1 hn
    have hfirst := ihp hm
    have hsecond := ihq hl
    rw [List.length_drop] at hsecond
    omega
  | either p q ihp ihq => exact (List.mem_append.1 h).elim ihp ihq
  | optional p ih =>
    rcases List.mem_append.1 h with h | h
    · exact ih h
    · exact List.mem_singleton.1 h ▸ Nat.zero_le _
  | run k => exact (bounds_of_mem_runLengths h).2
  | notAhead k =>
    rw [lengths] at h
    split at h
    · cases h
    · exact List.mem_singleton.1 h ▸ Nat.zero_le _

/-- The pattern matches no empty text, as far as its form tells. -/
def takesSome : Pattern → Bool
  | text x => !x.isEmpty
  | sequence p q => p.takesSome || q.takesSome
  | either p q => p.takesSome && q.takesSome
  | optional _ => false
  | run _ => true
  | notAhead _ => false

theorem pos_of_mem_lengths {p : Pattern} (hsome : p.takesSome = true) {s : List Char} {n : Nat} (h : n ∈ p.lengths s) :
    0 < n := by
  induction p generalizing s n with
  | text x =>
    rw [lengths] at h
    split at h
    · rw [List.mem_singleton.1 h]
      exact List.length_pos_iff.2 (by simpa [takesSome] using hsome)
    · cases h
  | sequence p q ihp ihq =>
    obtain ⟨m, hm, hn⟩ := List.mem_flatMap.1 h
    obtain ⟨l, hl, rfl⟩ := List.mem_map.1 hn
    rcases Bool.or_eq_true_iff.1 hsome with hp | hq
    · exact Nat.add_pos_left (ihp hp hm) l
    · exact Nat.add_pos_right m (ihq hq hl)
  | either p q ihp ihq =>
    obtain ⟨hp, hq⟩ := Bool.and_eq_true_iff.1 hsome
    exact (List.mem_append.1 h).elim (ihp hp) (ihq hq)
  | optional p ih => cases hsome
  | run k => exact (bounds_of_mem_runLengths h).1
  | notAhead k => cases hsome

/-- **The items of a search**: the matches of the pattern, each in what stands after the one before, to the end of the
text or up to where the search is given up. -/
inductive Yields (p : Pattern) : List Char → List (Except Failure (List Char)) → Prop
  | done {text : List Char} (none : p.find? text = none) : Yields p text []
  | gaveUp {text : List Char} (why : Failure) : Yields p text [.error why]
  | found {text word after : List Char} {items : List (Except Failure (List Char))}
      (first : p.find? text = some (word, after)) (others : Yields p after items) : Yields p text (.ok word :: items)

end Pattern

namespace Words

/-! ## The pattern of words -/

theorem length?_contractions (others : Pattern) (s : List Char) (xs : List (List Char)) :
    (xs.foldr (fun x others => Pattern.either (.text x) others) others).length? s =
      ((xs.find? (·.isPrefixOf s)).map List.length).or (others.length? s) := by
  induction xs with
  | nil => rfl
  | cons x xs ih =>
    rw [List.foldr_cons, Pattern.length?_either, Pattern.length?_text, ih, List.find?_cons]
    cases x.isPrefixOf s <;> rfl

theorem length?_spaced {k : Char → Bool} (hspace : k ' ' = false) (s : List Char) :
    (spaced k).length? s = spacedLength? k s := by
  have hrun : ∀ s, (Pattern.run k).length? s = if s.head?.any k then some (runLength k s) else none :=
    Pattern.head?_runLengths k
  cases s with
  | nil => exact (Pattern.length?_optional_nil ' ' (.run k)).trans (hrun [])
  | cons c rest =>
    rw [spaced, Pattern.length?_optional_cons, hrun, hrun, spacedLength?, List.head?_cons, Option.any_some]
    by_cases hc : c = ' '
    · subst hc
      rw [if_pos rfl, if_pos rfl, hspace]
      dsimp only
      cases rest.head?.any k <;> rfl
    · rw [if_neg hc, if_neg hc, Option.none_or]
      simp only [List.head?_cons, Option.any_some, Nat.zero_add]

theorem space_in_no_word : Text.isLetter ' ' = false ∧ Text.isNumeral ' ' = false ∧ isSign ' ' = false := by decide

/-- What no other alternative matches begins with a blank. -/
theorem isBlank_of_spacedLength? {c : Char} {rest : List Char} (hletter : spacedLength? Text.isLetter (c :: rest) = none)
    (hnumeral : spacedLength? Text.isNumeral (c :: rest) = none) (hsign : spacedLength? isSign (c :: rest) = none) :
    Text.isBlank c = true := by
  by_cases hc : c = ' '
  · subst hc
    decide
  · simp only [spacedLength?, if_neg hc, List.head?_cons, Option.any_some, ite_eq_right_iff, reduceCtorEq, imp_false,
      Bool.not_eq_true] at hletter hnumeral hsign
    simpa [isSign, hletter, hnumeral] using hsign

theorem length?_pattern_eq (s : List Char) : pattern.length? s = (contraction? s).or ((spacedLength? Text.isLetter s).or
    ((spacedLength? Text.isNumeral s).or ((spacedLength? isSign s).or
      (if s.head?.any Text.isBlank then
        some (blankLength (runLength Text.isBlank s) (s.dropWhile Text.isBlank)) else none)))) := by
  obtain ⟨hletter, hnumeral, hsign⟩ := space_in_no_word
  have hblank : (Pattern.either (.sequence (.run Text.isBlank) (.notAhead fun c => !Text.isBlank c))
      (.run Text.isBlank)).length? s = if s.head?.any Text.isBlank then
        some (blankLength (runLength Text.isBlank s) (s.dropWhile Text.isBlank)) else none := by
    rw [Pattern.length?_either, Pattern.length?_runNotAhead, Pattern.length?, Pattern.lengths, Pattern.head?_runLengths,
      blankLength, ← runLength]
    cases s.head?.any Text.isBlank with
    | false => rfl
    | true =>
      simp only [if_true, Bool.or_eq_true, beq_iff_eq]
      cases (s.dropWhile Text.isBlank).isEmpty with
      | true => rfl
      | false =>
        by_cases hone : runLength Text.isBlank s = 1 <;> simp [hone]
  rw [pattern, length?_contractions, Pattern.length?_either, Pattern.length?_either, Pattern.length?_either,
    length?_spaced hletter, length?_spaced hnumeral, length?_spaced hsign, hblank, contraction?]

/-- **The pattern matches at the front of every text**, as long as the first word is. -/
theorem length?_pattern (c : Char) (rest : List Char) : pattern.length? (c :: rest) = some (wordLength (c :: rest)) := by
  rw [length?_pattern_eq, wordLength]
  cases contraction? (c :: rest) with
  | some n => rfl
  | none =>
    cases hletter : spacedLength? Text.isLetter (c :: rest) with
    | some n => rfl
    | none =>
      cases hnumeral : spacedLength? Text.isNumeral (c :: rest) with
      | some n => rfl
      | none =>
        cases hsign : spacedLength? isSign (c :: rest) with
        | some n => rfl
        | none =>
          have hblank := isBlank_of_spacedLength? hletter hnumeral hsign
          rw [List.head?_cons, Option.any_some, hblank]
          rfl

theorem wordLength_bounds (c : Char) (rest : List Char) :
    0 < wordLength (c :: rest) ∧ wordLength (c :: rest) ≤ rest.length + 1 := by
  have hmem : wordLength (c :: rest) ∈ pattern.lengths (c :: rest) := List.mem_of_mem_head? (length?_pattern c rest)
  exact ⟨Pattern.pos_of_mem_lengths rfl hmem, Pattern.le_of_mem_lengths hmem⟩

theorem find?_pattern (c : Char) (rest : List Char) : pattern.find? (c :: rest) =
    some (c :: rest.take (wordLength (c :: rest) - 1), rest.drop (wordLength (c :: rest) - 1)) := by
  rw [Pattern.find?, length?_pattern]
  obtain ⟨n, hn⟩ := Nat.exists_eq_succ_of_ne_zero (Nat.ne_of_gt (wordLength_bounds c rest).1)
  rw [hn]
  rfl

/-! ## Searches -/

/-- **A search that can be relied on**: it gives the matches of the pattern in order, or gives up. -/
def Faithful (find : Finder) : Prop := ∀ text, pattern.Yields text (find text)

/-- **Words make up the text**, where the search is not given up. -/
theorem exists_words {text : List Char} {items : List (Except Pattern.Failure (List Char))}
    (h : pattern.Yields text items) (hok : ∀ why, .error why ∉ items) :
    ∃ words : List (List Char), items = words.map .ok ∧ words.flatten = text := by
  induction h with
  | @done text hnone =>
    cases text with
    | nil => exact ⟨[], rfl, rfl⟩
    | cons c rest =>
      rw [find?_pattern] at hnone
      cases hnone
  | gaveUp why => exact absurd List.mem_cons_self (hok why)
  | @found text word after items hfirst others ih =>
    obtain ⟨words, rfl, hwords⟩ := ih fun why hmem => hok why (List.mem_cons_of_mem _ hmem)
    refine ⟨word :: words, rfl, ?_⟩
    rw [List.flatten_cons, hwords]
    cases text with
    | nil => cases hfirst
    | cons c rest =>
      rw [find?_pattern] at hfirst
      cases hfirst
      rw [List.cons_append, List.take_append_drop]

/-- **The engine that counts branches can be relied on.** -/
theorem faithful_find : Faithful find := by
  intro text
  fun_induction find text with
  | case1 => exact .done rfl
  | case2 => exact .gaveUp _
  | case3 c rest hbranches n ih => exact .found (find?_pattern c rest) ih

theorem branches_le (c : Char) (rest : List Char) : branches (c :: rest) ≤ rest.length + 3 := by
  have hword := (wordLength_bounds c rest).2
  have hrun : runLength Text.isBlank (c :: rest) ≤ rest.length + 1 := (List.takeWhile_sublist _).length_le
  unfold branches
  omega

/-- It gives up on no text that is shorter than its branches. -/
theorem ok_of_find {text : List Char} (h : text.length + 2 ≤ maxBranches) : ∀ why, .error why ∉ find text := by
  intro why
  fun_induction find text with
  | case1 => exact List.not_mem_nil
  | case2 c rest hbranches =>
    have := branches_le c rest
    rw [List.length_cons] at h
    omega
  | case3 c rest hbranches n ih =>
    intro hmem
    rcases List.mem_cons.1 hmem with heq | hmem
    · cases heq
    · refine ih ?_ hmem
      rw [List.length_cons] at h
      rw [List.length_drop]
      omega

/-- **It gives up on a word of a million letters.** -/
theorem find_replicate {c : Char} (hc : Text.isLetter c = true) {n : Nat}
    (h : maxBranches < n + 2) : find (List.replicate n c) = [.error .stackOverflow] := by
  cases n with
  | zero => exact absurd h (by decide)
  | succ n =>
    have hspace : c ≠ ' ' := by
      rintro rfl
      cases hc
    have hquote : '\'' ≠ c := by
      rintro rfl
      cases hc
    have hplain : contraction? (List.replicate (n + 1) c) = none := by
      simp [contraction?, contractions, List.replicate_succ, List.isPrefixOf, hquote]
    have hletter : spacedLength? Text.isLetter (List.replicate (n + 1) c) = some (n + 1) := by
      rw [List.replicate_succ, spacedLength?, if_neg hspace, ← List.replicate_succ]
      simp [hc, runLength, List.head?_replicate]
    have hlength : wordLength (List.replicate (n + 1) c) = n + 1 := by
      rw [wordLength, hplain, hletter]
      rfl
    have hbranches : maxBranches < branches (List.replicate (n + 1) c) := by
      rw [branches, hlength]
      omega
    rw [List.replicate_succ] at hbranches ⊢
    rw [find, if_pos hbranches]

end Words
end CausalLM
