import CausalLM.Proofs.Text.Characters
import CausalLM.Proofs.Text.Utf8
import CausalLM.Tokenizer
/-!
# Proofs.Tokenizer.Specials — where special tokens stand in a text

Each special token is looked for on its own, so a hit is where its text first stands (`of_positionFrom?`), and the best
of the hits is beaten by none after it and beats all in front of it (`exists_best`).  The list has the longest texts
first and of these the lowest token, so what is taken starts first, and of those that start there it is the longest, and
its token the lowest (`of_next?`).  It is cut out where it stands, and no special text stands in what is in front of it
(`not_infix_of_next?`).  What is in no special token found this way is in the `stretches`.
-/
namespace CausalLM.Specials

/-! ## The order of the list -/

/-- The first is no worse than the second where both stand: it has more bytes, or as many and no higher token. -/
def Before (a b : List Char × Token) : Prop :=
  (Utf8.encode b.1).length < (Utf8.encode a.1).length ∨
    (Utf8.encode a.1).length = (Utf8.encode b.1).length ∧ a.2.toInt ≤ b.2.toInt

theorem Before.refl (a : List Char × Token) : Before a a := .inr ⟨rfl, Int.le_refl _⟩

theorem Before.length_le {a b : List Char × Token} (h : Before a b) :
    (Utf8.encode b.1).length ≤ (Utf8.encode a.1).length :=
  h.elim Nat.le_of_lt fun h => Nat.le_of_eq h.1.symm

theorem Before.toInt_le {a b : List Char × Token} (h : Before a b) (htext : a.1 = b.1) : a.2.toInt ≤ b.2.toInt := by
  rcases h with h | h
  · rw [htext] at h
    exact absurd h (Nat.lt_irrefl _)
  · exact h.2

theorem precedes_iff {a b : String × Token} :
    precedes a b = true ↔ Before (a.1.toList, a.2) (b.1.toList, b.2) := by
  have hbytes : ∀ s : String, (Utf8.encode s.toList).length = s.utf8ByteSize := fun s => by
    rw [← Utf8.ofString_eq_encode, Utf8.length_ofString]
  simp only [precedes, Before, hbytes, Bool.or_eq_true, Bool.and_eq_true, decide_eq_true_eq]

theorem pairwise_ofVocabulary (v : Vocabulary) : (ofVocabulary v).list.Pairwise Before := by
  have hsorted : (v.specials.mergeSort precedes).Pairwise fun a b => precedes a b = true := by
    refine List.pairwise_mergeSort (fun a b c hab hbc => ?_) (fun a b => ?_) v.specials
    · rw [precedes_iff, Before] at hab hbc ⊢
      omega
    · rw [Bool.or_eq_true, precedes_iff, precedes_iff, Before, Before]
      omega
  unfold ofVocabulary
  rw [List.pairwise_map]
  exact hsorted.imp fun h => precedes_iff.1 h

theorem mem_ofVocabulary {v : Vocabulary} {x : List Char} {t : Token} :
    (x, t) ∈ (ofVocabulary v).list ↔ ∃ text, (text, t) ∈ v.specials ∧ text.toList = x := by
  unfold ofVocabulary
  simp only [List.mem_map, List.mem_mergeSort, Prod.mk.injEq, Prod.exists]
  constructor
  · rintro ⟨text, t', hmem, hx, rfl⟩
    exact ⟨text, hmem, hx⟩
  · rintro ⟨text, hmem, hx⟩
    exact ⟨text, t, hmem, hx, rfl⟩

/-! ## Where a text first stands -/

/-- **The text stands where it is found**, and nowhere earlier. -/
theorem of_positionFrom? {x : List Char} {n p : Nat} {text : List Char} (h : positionFrom? x n text = some p) :
    ∃ before after, text = before ++ x ++ after ∧ p = n + before.length ∧
      ∀ a b, text = a ++ x ++ b → before.length ≤ a.length := by
  fun_induction positionFrom? x n text with
  | case1 => cases h
  | case2 n c rest hstands =>
    cases h
    obtain ⟨after, hafter⟩ := List.isPrefixOf_iff_prefix.1 hstands
    exact ⟨[], after, hafter.symm, rfl, fun _ _ _ => Nat.zero_le _⟩
  | case3 n c rest hstands ih =>
    obtain ⟨before, after, htext, hp, hfirst⟩ := ih h
    refine ⟨c :: before, after, by rw [htext]; rfl, by rw [hp, List.length_cons]; omega, fun a b hab => ?_⟩
    cases a with
    | nil => exact absurd (List.isPrefixOf_iff_prefix.2 ⟨b, hab.symm⟩) hstands
    | cons d a => exact Nat.succ_le_succ (hfirst a b (List.cons.inj hab).2)

theorem not_infix_of_positionFrom? {x : List Char} (hne : x ≠ []) {n : Nat} {text : List Char}
    (h : positionFrom? x n text = none) : ¬x <:+: text := by
  fun_induction positionFrom? x n text with
  | case1 => exact fun hstands => hne (List.infix_nil.1 hstands)
  | case2 => cases h
  | case3 n c rest hstands ih =>
    intro hinfix
    rcases List.infix_cons_iff.1 hinfix with hfront | hinfix
    · exact hstands (List.isPrefixOf_iff_prefix.2 hfront)
    · exact ih h hinfix

/-! ## The best of some -/

/-- **The best beats all in front of it**, and none behind it beats it. -/
theorem exists_best (first : Hit) (others : List Hit) : ∃ earlier later,
    first :: others = earlier ++ Hit.best first others :: later ∧
    (∀ h ∈ earlier, (Hit.best first others).Beats h) ∧ ∀ h ∈ later, ¬h.Beats (Hit.best first others) := by
  induction others generalizing first with
  | nil => exact ⟨[], [], rfl, List.forall_mem_nil _, List.forall_mem_nil _⟩
  | cons k others ih =>
    rw [Hit.best, List.foldl_cons, ← Hit.best]
    by_cases hk : k.Beats first
    · rw [if_pos hk]
      obtain ⟨earlier, later, hlist, hearlier, hlater⟩ := ih k
      refine ⟨first :: earlier, later, by rw [hlist]; rfl, List.forall_mem_cons.2 ⟨?_, hearlier⟩, hlater⟩
      -- the best is this one, or it beats this one
      cases earlier with
      | nil => exact (List.cons.inj hlist).1 ▸ hk
      | cons _ earlier =>
        have hbest := hearlier k ((List.cons.inj hlist).1 ▸ List.mem_cons_self)
        unfold Hit.Beats at hk hbest ⊢
        omega
    · rw [if_neg hk]
      obtain ⟨earlier, later, hlist, hearlier, hlater⟩ := ih first
      cases earlier with
      | nil =>
        obtain ⟨hfirst, hothers⟩ := List.cons.inj hlist
        refine ⟨[], k :: later, ?_, List.forall_mem_nil _, List.forall_mem_cons.2 ⟨hfirst ▸ hk, hlater⟩⟩
        rw [List.nil_append, ← hfirst, hothers]
      | cons e earlier =>
        obtain ⟨rfl, hothers⟩ := List.cons.inj hlist
        obtain ⟨hfirst, hrest⟩ := List.forall_mem_cons.1 hearlier
        refine ⟨first :: k :: earlier, later, congrArg (first :: k :: ·) hothers,
          List.forall_mem_cons.2 ⟨hfirst, List.forall_mem_cons.2 ⟨?_, hrest⟩⟩, hlater⟩
        unfold Hit.Beats at hk hfirst ⊢
        omega

variable {s : Specials} {text : List Char} {h k : Hit}

theorem exists_of_best? (hbest : s.best? text = some h) : ∃ earlier later, s.hits text = earlier ++ h :: later ∧
    (∀ k ∈ earlier, h.Beats k) ∧ ∀ k ∈ later, ¬k.Beats h := by
  unfold best? at hbest
  split at hbest
  · cases hbest
  · rename_i first others hhits
    cases hbest
    rw [hhits]
    exact exists_best first others

theorem position_le_of_best? (hbest : s.best? text = some h) (hk : k ∈ s.hits text) : h.position ≤ k.position := by
  obtain ⟨earlier, later, hhits, hearlier, hlater⟩ := exists_of_best? hbest
  rw [hhits, List.mem_append, List.mem_cons] at hk
  rcases hk with hk | rfl | hk
  · exact (hearlier k hk).elim Nat.le_of_lt fun hsame => Nat.le_of_eq hsame.1
  · exact Nat.le_refl _
  · exact Nat.not_lt.1 fun hlt => hlater k hk (.inl hlt)

theorem pairwise_hits (hsorted : s.list.Pairwise Before) (text : List Char) :
    (s.hits text).Pairwise fun h k => Before (h.text, h.token) (k.text, k.token) := by
  unfold hits
  refine List.Pairwise.filterMap _ (fun p q hpq h hh k hk => ?_) hsorted
  obtain ⟨n, -, rfl⟩ := Option.map_eq_some_iff.1 hh
  obtain ⟨m, -, rfl⟩ := Option.map_eq_some_iff.1 hk
  exact hpq

theorem before_of_best? (hsorted : s.list.Pairwise Before) (hbest : s.best? text = some h) (hk : k ∈ s.hits text)
    (hle : k.position ≤ h.position) : Before (h.text, h.token) (k.text, k.token) := by
  obtain ⟨earlier, later, hhits, hearlier, -⟩ := exists_of_best? hbest
  have hpairwise := pairwise_hits hsorted text
  rw [hhits] at hk hpairwise
  rw [List.mem_append, List.mem_cons] at hk
  rcases hk with hk | rfl | hk
  · rcases hearlier k hk with hlt | ⟨-, hlonger⟩
    · exact absurd hlt (Nat.not_lt.2 hle)
    · exact .inl hlonger
  · exact .refl _
  · exact (List.pairwise_cons.1 (List.pairwise_append.1 hpairwise).2.1).1 k hk

/-! ## The one that is taken -/

theorem exists_hit {p : List Char × Token} (hp : p ∈ s.list) {a b : List Char} (htext : text = a ++ p.1 ++ b) :
    ∃ n, ⟨n, p.1, p.2⟩ ∈ s.hits text ∧ n ≤ a.length := by
  cases hposition : positionFrom? p.1 0 text with
  | none => exact absurd (htext ▸ List.infix_append a p.1 b) (not_infix_of_positionFrom? (s.ne_nil p hp) hposition)
  | some n =>
    obtain ⟨before, -, -, hbefore, hfirst⟩ := of_positionFrom? hposition
    have hle := hfirst a b htext
    exact ⟨n, mem_hits.2 ⟨hp, hposition⟩, by omega⟩

theorem not_infix_of_next?_eq_none {x : List Char} {t : Token} (hx : (x, t) ∈ s.list)
    (hnone : s.next? text = none) : ¬x <:+: text := by
  rintro ⟨a, b, htext⟩
  obtain ⟨n, hmem, -⟩ := exists_hit hx htext.symm
  rw [next?, Option.map_eq_none_iff, best?] at hnone
  split at hnone
  · rename_i hhits
    rw [hhits] at hmem
    cases hmem
  · cases hnone

theorem next?_of_specials {v : Vocabulary} (hnone : v.specials = []) (text : List Char) :
    (ofVocabulary v).next? text = none := by
  simp [next?, best?, hits, ofVocabulary, hnone]

theorem next?_nil (s : Specials) : s.next? [] = none := by
  have hhits : s.hits [] = [] := List.filterMap_eq_nil_iff.2 fun _ _ => rfl
  rw [next?, best?, hhits]
  rfl

/-- **What is taken starts first, and of those that start there it is the best.** -/
theorem of_next? {before after : List Char} {t : Token} (hnext : s.next? text = some (before, t, after)) :
    ∃ x, (x, t) ∈ s.list ∧ text = before ++ x ++ after ∧
      (∀ p ∈ s.list, ∀ a b, text = a ++ p.1 ++ b → before.length ≤ a.length) ∧
      (s.list.Pairwise Before → ∀ p ∈ s.list, ∀ b, text = before ++ p.1 ++ b → Before (x, t) p) := by
  obtain ⟨hit, hbest, heq⟩ := Option.map_eq_some_iff.1 hnext
  obtain ⟨hmem, hposition⟩ := mem_hits.1 (mem_of_best? hbest)
  obtain ⟨front, back, htext, hlength, -⟩ := of_positionFrom? hposition
  rw [Nat.zero_add] at hlength
  have hfront : text.take hit.position = front := by
    rw [htext, hlength, List.append_assoc, List.take_left]
  have hback : text.drop (hit.position + hit.text.length) = back := by
    rw [htext, hlength, ← List.length_append, List.drop_left]
  rw [hfront, hback] at heq
  cases heq
  refine ⟨hit.text, hmem, htext, fun p hp a b hab => ?_, fun hsorted p hp b hab => ?_⟩
  · obtain ⟨n, hhit, hle⟩ := exists_hit hp hab
    have hpos := position_le_of_best? hbest hhit
    dsimp only at hpos
    omega
  · obtain ⟨n, hhit, hle⟩ := exists_hit hp hab
    exact before_of_best? hsorted hbest hhit (hlength ▸ hle)

/-- **No special text stands in front of the first special token.** -/
theorem not_infix_of_next? {x : List Char} {u : Token} (hx : (x, u) ∈ s.list)
    {before after : List Char} {t : Token} (hnext : s.next? text = some (before, t, after)) : ¬x <:+: before := by
  obtain ⟨y, -, rfl, hfirst, -⟩ := of_next? hnext
  rintro ⟨front, back, rfl⟩
  have hpos : 0 < x.length := List.length_pos_iff.2 (s.ne_nil _ hx)
  -- then it would have been taken there
  have hle := hfirst _ hx front (back ++ y ++ after) (by simp only [List.append_assoc])
  simp only [List.length_append] at hle
  omega

/-! ## What is outside -/

/-- **The stretches of a text between the special tokens** that are found in it. -/
def stretches (s : Specials) (text : List Char) : List (List Char) :=
  match h : s.next? text with
  | none => [text]
  | some (before, _, after) =>
    have : after.length < text.length := s.length_next?_lt text h
    before :: stretches s after
termination_by text.length

/-- **What of a text is outside** the special tokens that are found in it. -/
def outside (s : Specials) (text : List Char) : List Char := (s.stretches text).flatten

theorem stretches_of_none (h : s.next? text = none) : s.stretches text = [text] := by
  unfold stretches
  split
  · rfl
  · rename_i hsome
    rw [h] at hsome
    cases hsome

theorem stretches_of_some {before after : List Char} {t : Token} (h : s.next? text = some (before, t, after)) :
    s.stretches text = before :: s.stretches after := by
  conv => lhs; unfold stretches
  split
  · rename_i hnone
    rw [h] at hnone
    cases hnone
  · rename_i hsome
    rw [h] at hsome
    cases hsome
    rfl

end CausalLM.Specials
