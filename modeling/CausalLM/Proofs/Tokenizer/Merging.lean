import CausalLM.Proofs.Tokenizer.Pieces
/-!
# Proofs.Tokenizer.Merging — joining goes on until nothing can be joined

Of the adjacent pairs of a word a round joins one with the lowest rank (`round_of_lowest`), and there is one as long as
any of them has a rank (`not_mem_of_lowest`).  A round shortens the word, so the rounds come to an end
(`Rounds.add_length_le`), and what they made of the word is in every piece (`Rounds.origin`).  The pairs with ranks are
those that some line lists (`mem_ranksOf_iff`).
-/
namespace CausalLM.Merge

/-! ## What lines list -/

/-- **A line lists a pair**: its two pieces with a blank between them, and none in the first. -/
def Lists (line : String) (p : Pair) : Prop := line = p.1 ++ " " ++ p.2 ∧ ' ' ∉ p.1.toList

theorem takeWhile_append_cons {left : List Char} (h : ' ' ∉ left) (right : List Char) :
    (left ++ ' ' :: right).takeWhile (· ≠ ' ') = left ∧ (left ++ ' ' :: right).dropWhile (· ≠ ' ') = ' ' :: right := by
  have hleft : ∀ c ∈ left, decide (c ≠ ' ') = true := fun c hc => decide_eq_true fun heq => h (heq ▸ hc)
  rw [List.takeWhile_append_of_pos hleft, List.dropWhile_append_of_pos hleft]
  simp

/-- The pair of a line is the one it lists. -/
theorem pairOfLine_eq_some_iff {line : String} {p : Pair} : pairOfLine line = some p ↔ Lists line p := by
  obtain ⟨left, right⟩ := p
  constructor
  · intro h
    unfold pairOfLine at h
    dsimp only at h
    split at h
    · rename_i c rest hdrop
      simp only [Option.some.injEq, Prod.mk.injEq] at h
      obtain ⟨rfl, rfl⟩ := h
      have hblank : c = ' ' := by
        have hfirst := List.head?_dropWhile_not (fun c : Char => decide (c ≠ ' ')) line.toList
        rw [hdrop] at hfirst
        simpa using hfirst
      subst hblank
      refine ⟨String.toList_injective ?_, fun hmem => ?_⟩
      · have hwhole := List.takeWhile_append_dropWhile (p := fun c : Char => decide (c ≠ ' ')) (l := line.toList)
        rw [hdrop] at hwhole
        simpa using hwhole.symm
      · have hbefore := List.all_takeWhile (p := fun c : Char => decide (c ≠ ' ')) (l := line.toList)
        rw [String.toList_ofList] at hmem
        simpa using List.all_eq_true.1 hbefore ' ' hmem
    · cases h
  · rintro ⟨rfl, hnot⟩
    obtain ⟨htake, hdrop⟩ := takeWhile_append_cons hnot right.toList
    have hline : (left ++ " " ++ right).toList = left.toList ++ ' ' :: right.toList := by simp
    unfold pairOfLine
    dsimp only
    rw [hline, htake, hdrop]
    simp

/-- Ranks that grow line by line have the pairs of all lines. -/
theorem mem_foldl_iff {p : Pair} {step : Ranks → String × Nat → Ranks}
    (hstep : ∀ ranks line place, p ∈ step ranks (line, place) ↔ Lists line p ∨ p ∈ ranks) :
    ∀ {l : List (String × Nat)} {ranks : Ranks},
      p ∈ l.foldl step ranks ↔ (∃ line ∈ l.map Prod.fst, Lists line p) ∨ p ∈ ranks
  | [], ranks => by simp
  | (line, place) :: l, ranks => by
    rw [List.foldl_cons, mem_foldl_iff hstep, hstep, List.map_cons]
    simp only [List.mem_cons, exists_eq_or_imp, or_assoc, or_left_comm]

/-- **The pairs with ranks are those that some line lists.** -/
theorem mem_ranksOf_iff {lines : List String} {p : Pair} : p ∈ ranksOf lines ↔ ∃ line ∈ lines, Lists line p := by
  unfold ranksOf
  rw [mem_foldl_iff, List.zipIdx_map_fst]
  · simp
  · intro ranks line place
    rw [← pairOfLine_eq_some_iff]
    dsimp only
    cases pairOfLine line with
    | none => simp
    | some q => simp only [Std.HashMap.mem_insert, beq_iff_eq, Option.some.injEq]

/-! ## One round -/

variable {ranks : Ranks}

/-- **A round** joins an adjacent pair with the lowest rank wherever it stands. -/
structure Round (ranks : Ranks) (word : List String) (p : Pair) (joined : List String) : Prop where
  adjacent : p ∈ pairs word
  lowest : ∃ r, ranks[p]? = some r ∧ ∀ q ∈ pairs word, ∀ s, ranks[q]? = some s → r ≤ s
  joined_eq : joined = join p word

theorem rank_of_better {best : Option (Pair × Nat)} {p q : Pair} {r : Nat} (h : better ranks best p = some (q, r)) :
    best = some (q, r) ∨ ranks[q]? = some r := by
  unfold better at h
  split at h
  · exact .inl h
  · rename_i hrank
    cases h
    exact .inr hrank
  · rename_i hrank
    split at h
    · cases h
      exact .inr hrank
    · exact .inl h

/-- A pair with a rank, or one found before, is not passed over for a worse one. -/
theorem exists_better {best : Option (Pair × Nat)} {p : Pair} {s : Nat}
    (h : (∃ q, best = some (q, s)) ∨ ranks[p]? = some s) : ∃ q r, better ranks best p = some (q, r) ∧ r ≤ s := by
  unfold better
  rcases h with ⟨q, rfl⟩ | h
  · cases ranks[p]? with
    | none => exact ⟨q, s, rfl, Nat.le_refl s⟩
    | some r =>
      dsimp only
      split
      · exact ⟨p, r, rfl, Nat.le_of_lt ‹r < s›⟩
      · exact ⟨q, s, rfl, Nat.le_refl s⟩
  · rw [h]
    rcases best with _ | ⟨q, r⟩
    · exact ⟨p, s, rfl, Nat.le_refl s⟩
    · dsimp only
      split
      · exact ⟨p, s, rfl, Nat.le_refl s⟩
      · exact ⟨q, r, rfl, Nat.not_lt.1 ‹¬s < r›⟩

theorem rank_of_lowest {p : Pair} {r : Nat} : ∀ {l : List Pair} {best : Option (Pair × Nat)},
    lowest ranks best l = some (p, r) → best = some (p, r) ∨ ranks[p]? = some r
  | [], _, h => .inl h
  | q :: l, best, h => by
    rcases rank_of_lowest (l := l) h with h | h
    · exact rank_of_better h
    · exact .inr h

theorem exists_lowest {s : Nat} : ∀ {l : List Pair} {best : Option (Pair × Nat)},
    (∃ q, best = some (q, s)) ∨ (∃ q ∈ l, ranks[q]? = some s) → ∃ q r, lowest ranks best l = some (q, r) ∧ r ≤ s
  | [], best, h => by
    obtain ⟨q, rfl⟩ := h.resolve_right (by simp)
    exact ⟨q, s, rfl, Nat.le_refl s⟩
  | p :: l, best, h => by
    have hcases : ((∃ q, best = some (q, s)) ∨ ranks[p]? = some s) ∨ ∃ q ∈ l, ranks[q]? = some s := by
      simpa [or_assoc] using h
    rcases hcases with h | h
    · obtain ⟨q, r, hbetter, hle⟩ := exists_better h
      obtain ⟨q', r', hlowest, hle'⟩ := exists_lowest (l := l) (.inl ⟨q, hbetter⟩)
      exact ⟨q', r', hlowest, Nat.le_trans hle' hle⟩
    · exact exists_lowest (l := l) (.inr h)

/-- **What is found is a round.** -/
theorem round_of_lowest {word : List String} {p : Pair} {r : Nat} (h : lowest ranks none (pairs word) = some (p, r)) :
    Round ranks word p (join p word) := by
  have hrank := (rank_of_lowest h).resolve_left (by simp)
  refine ⟨mem_of_lowest h, ⟨r, hrank, fun q hq s hs => ?_⟩, rfl⟩
  obtain ⟨q', r', hlowest, hle⟩ : ∃ q' r', lowest ranks none (pairs word) = some (q', r') ∧ r' ≤ s :=
    exists_lowest (.inr ⟨q, hq, hs⟩)
  rw [h] at hlowest
  cases hlowest
  exact hle

/-- Where nothing is found no adjacent pair has a rank. -/
theorem not_mem_of_lowest {word : List String} (h : lowest ranks none (pairs word) = none) :
    ∀ p ∈ pairs word, p ∉ ranks := by
  intro p hp hranked
  obtain ⟨q, r, hlowest, -⟩ : ∃ q r, lowest ranks none (pairs word) = some (q, r) ∧ r ≤ ranks[p] :=
    exists_lowest (.inr ⟨p, hp, Std.HashMap.getElem?_eq_some_getElem hranked⟩)
  rw [h] at hlowest
  cases hlowest

/-- A piece of a joined word was a piece before, or it is the pair in one. -/
theorem mem_join {p : Pair} {piece : String} {word : List String} (h : piece ∈ join p word) :
    piece ∈ word ∨ piece = p.1 ++ p.2 := by
  fun_induction join p word with
  | case1 a b rest hp ih =>
    obtain ⟨rfl, rfl⟩ := hp
    rcases List.mem_cons.1 h with h | h
    · exact .inr h
    · exact (ih h).imp_left fun h => List.mem_cons_of_mem _ (List.mem_cons_of_mem _ h)
  | case2 a b rest hp ih =>
    rcases List.mem_cons.1 h with rfl | h
    · exact .inl List.mem_cons_self
    · exact (ih h).imp_left (List.mem_cons_of_mem _)
  | case3 word hword => exact .inl h

/-! ## All rounds -/

/-- **So many rounds make one word of another.** -/
inductive Rounds (ranks : Ranks) : List String → Nat → List String → Prop
  | none {word : List String} : Rounds ranks word 0 word
  | one {word joined result : List String} {p : Pair} {n : Nat} (first : Round ranks word p joined)
      (rest : Rounds ranks joined n result) : Rounds ranks word (n + 1) result

variable {word result : List String} {n : Nat}

/-- **Each round makes a word shorter**, so there are fewer of them than pieces. -/
theorem Rounds.add_length_le (h : Rounds ranks word n result) : n + result.length ≤ word.length := by
  induction h with
  | none => omega
  | one first rest ih =>
    have hshorter := length_join_lt first.adjacent
    rw [first.joined_eq] at ih
    omega

/-- **What a piece is made of**: it was there from the start, or a round joined it from two that were adjacent. -/
theorem Rounds.origin (h : Rounds ranks word n result) {piece : String} (hpiece : piece ∈ result) :
    piece ∈ word ∨ ∃ k w p w', Rounds ranks word k w ∧ Round ranks w p w' ∧ piece = p.1 ++ p.2 := by
  induction h with
  | none => exact .inl hpiece
  | one first rest ih =>
    rcases ih hpiece with hjoined | ⟨k, w, p, w', hrounds, hround, heq⟩
    · rw [first.joined_eq] at hjoined
      exact (mem_join hjoined).imp_right fun heq => ⟨0, _, _, _, .none, first, heq⟩
    · exact .inr ⟨k + 1, w, p, w', .one first hrounds, hround, heq⟩

theorem exists_rounds_all (ranks : Ranks) (word : List String) : ∃ n, Rounds ranks word n (all ranks word) := by
  fun_induction all ranks word with
  | case1 word h => exact ⟨0, .none⟩
  | case2 word p r h hlt ih =>
    obtain ⟨n, hrounds⟩ := ih
    exact ⟨n + 1, .one (round_of_lowest h) hrounds⟩

/-- **In the end no adjacent pair has a rank.** -/
theorem not_mem_of_all (ranks : Ranks) (word : List String) : ∀ p ∈ pairs (all ranks word), p ∉ ranks := by
  fun_induction all ranks word with
  | case1 word h => exact not_mem_of_lowest h
  | case2 word p r h hlt ih => exact ih

/-! ## From a text -/

/-- **Joining comes to an end with a word in which nothing is left to join, and it loses nothing.**  From the
characters of a text, by any lines, it takes at most as many rounds as there are characters to the pieces it gives.
These are the text again, one after the other.  Each of them is one character, or two that were adjacent in some round
and that a line lists.  And no adjacent two of them have a rank or stand in a line. -/
theorem joined_all (lines : List String) (text : String) :
    let ranks := ranksOf lines
    let word := text.toList.map String.singleton
    let pieces := all ranks word
    (∃ n, Rounds ranks word n pieces) ∧
    (∀ n w, Rounds ranks word n w → n + w.length ≤ word.length) ∧
    String.join pieces = text ∧
    (∀ piece ∈ pieces, (∃ c, piece = String.singleton c) ∨
      ∃ n w p w', Rounds ranks word n w ∧ Round ranks w p w' ∧ (∃ line ∈ lines, Lists line p) ∧ piece = p.1 ++ p.2) ∧
    ∀ p ∈ pairs pieces, p ∉ ranks ∧ ∀ line ∈ lines, ¬Lists line p := by
  dsimp only
  obtain ⟨n, hrounds⟩ := exists_rounds_all (ranksOf lines) (text.toList.map String.singleton)
  refine ⟨⟨n, hrounds⟩, fun _ _ h => h.add_length_le, ?_, fun piece hpiece => ?_, fun p hp => ?_⟩
  · apply String.toList_injective
    rw [String.toList_join, flatMap_toList_all, List.flatMap_map]
    simp
  · rcases hrounds.origin hpiece with hchar | ⟨k, w, p, w', hbefore, hround, heq⟩
    · obtain ⟨c, -, rfl⟩ := List.mem_map.1 hchar
      exact .inl ⟨c, rfl⟩
    · obtain ⟨r, hrank, -⟩ := hround.lowest
      have hranked : p ∈ ranksOf lines := Std.HashMap.mem_iff_isSome_getElem?.2 (Option.isSome_of_eq_some hrank)
      exact .inr ⟨k, w, p, w', hbefore, hround, mem_ranksOf_iff.1 hranked, heq⟩
  · have hnot := not_mem_of_all (ranksOf lines) _ p hp
    exact ⟨hnot, fun line hline hlists => hnot (mem_ranksOf_iff.2 ⟨line, hline, hlists⟩)⟩

/-- Where a pair overlaps itself the left one is joined; a line without a blank lists nothing. -/
theorem joined_all_overlapping :
    let ranks := ranksOf ["a a", "aa", "a a"]
    let word := "aaa".toList.map String.singleton
    all ranks word = ["aa", "a"] ∧ String.join (all ranks word) = "aaa" ∧
      (∃ n w p w', Rounds ranks word n w ∧ Round ranks w p w' ∧ "aa" = p.1 ++ p.2) ∧ ("aa", "a") ∉ ranks := by
  have hrank : (ranksOf ["a a", "aa", "a a"])[(("a", "a") : Pair)]? = some 2 := by simp [ranksOf, pairOfLine]
  have hother : (ranksOf ["a a", "aa", "a a"])[(("aa", "a") : Pair)]? = none := by simp [ranksOf, pairOfLine]
  have hall : all (ranksOf ["a a", "aa", "a a"]) ("aaa".toList.map String.singleton) = ["aa", "a"] := by
    have hword : "aaa".toList.map String.singleton = ["a", "a", "a"] := by decide
    rw [hword, all_of_lowest (p := ("a", "a")) (r := 2) (by simp [lowest, pairs, better, hrank])]
    exact all_of_none (by simp [lowest, pairs, better, join, hother])
  obtain ⟨-, -, hjoin, hpieces, hpairs⟩ := joined_all ["a a", "aa", "a a"] "aaa"
  rw [hall] at hpieces hpairs
  refine ⟨hall, hjoin, ?_, (hpairs ("aa", "a") List.mem_cons_self).1⟩
  rcases hpieces "aa" List.mem_cons_self with ⟨c, hc⟩ | ⟨n, w, p, w', hrounds, hround, -, heq⟩
  · have hlength : "aa".length = (String.singleton c).length := congrArg String.length hc
    rw [String.length_singleton] at hlength
    exact absurd hlength (by decide)
  · exact ⟨n, w, p, w', hrounds, hround, heq⟩

end CausalLM.Merge
