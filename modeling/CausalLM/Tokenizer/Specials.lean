import CausalLM.Text.Utf8
import CausalLM.Vocabulary
/-!
# Tokenizer.Specials — tokens that stand in the text as they are

Special tokens are found by their text.  Each is looked for on its own, and of those that are found the one is taken
that starts first, and of those that start there the longest; of equal texts the lowest token counts.
-/
namespace CausalLM

/-- **Special tokens**, the longest text first, and of equal lengths the lowest token; no text is empty. -/
structure Specials where
  list : List (List Char × Token)
  ne_nil : ∀ p ∈ list, p.1 ≠ []

namespace Specials

/-- Longer texts come first, and of equal lengths the lower token. -/
def precedes (a b : String × Token) : Bool :=
  decide (b.1.utf8ByteSize < a.1.utf8ByteSize) ||
    (decide (a.1.utf8ByteSize = b.1.utf8ByteSize) && decide (a.2.toInt ≤ b.2.toInt))

/-- **The special tokens of a vocabulary**, put into order. -/
def ofVocabulary (v : Vocabulary) : Specials where
  list := (v.specials.mergeSort precedes).map fun (text, t) => (text.toList, t)
  ne_nil := by
    intro p hp
    obtain ⟨entry, hmem, rfl⟩ := List.mem_map.1 hp
    exact fun h => Vocabulary.ne_of_mem_specials (List.mem_mergeSort.1 hmem) (String.toList_eq_nil_iff.1 h)

/-! ## Looking for one -/

/-- Where a text first stands in another, counted on from `n`. -/
def positionFrom? (x : List Char) (n : Nat) : List Char → Option Nat
  | [] => none
  | c :: rest => if x.isPrefixOf (c :: rest) then some n else positionFrom? x (n + 1) rest

theorem lt_of_positionFrom? {x : List Char} {n p : Nat} {text : List Char} (h : positionFrom? x n text = some p) :
    p < n + text.length := by
  fun_induction positionFrom? x n text with
  | case1 => cases h
  | case2 n c rest hstands =>
    cases h
    exact Nat.lt_add_of_pos_right (Nat.succ_pos _)
  | case3 n c rest hstands ih =>
    have := ih h
    rw [List.length_cons]
    omega

/-! ## The one that is taken -/

/-- **A special token in a text**, and where it first stands. -/
structure Hit where
  position : Nat
  text : List Char
  token : Token

namespace Hit

/-- The bytes of its text. -/
def size (h : Hit) : Nat := (Utf8.encode h.text).length

/-- One is taken before the other: it stands earlier, or at the same place and is longer. -/
def Beats (h k : Hit) : Prop := h.position < k.position ∨ h.position = k.position ∧ k.size < h.size

instance (h k : Hit) : Decidable (h.Beats k) := inferInstanceAs (Decidable (_ ∨ _))

/-- The best of some, the first one where several are. -/
def best (first : Hit) (others : List Hit) : Hit :=
  others.foldl (fun best h => if h.Beats best then h else best) first

theorem best_mem (first : Hit) (others : List Hit) : best first others ∈ first :: others := by
  induction others generalizing first with
  | nil => exact List.mem_singleton.2 rfl
  | cons h others ih =>
    rw [best, List.foldl_cons, ← best]
    split
    · exact List.mem_cons_of_mem _ (ih h)
    · rcases List.mem_cons.1 (ih first) with heq | hmem
      · exact List.mem_cons.2 (.inl heq)
      · exact List.mem_cons_of_mem _ (List.mem_cons_of_mem _ hmem)

end Hit

/-- Each special token that stands in the text, where it first does. -/
def hits (s : Specials) (text : List Char) : List Hit :=
  s.list.filterMap fun (x, t) => (positionFrom? x 0 text).map (Hit.mk · x t)

theorem mem_hits {s : Specials} {text : List Char} {h : Hit} :
    h ∈ s.hits text ↔ (h.text, h.token) ∈ s.list ∧ positionFrom? h.text 0 text = some h.position := by
  unfold hits
  simp only [List.mem_filterMap, Option.map_eq_some_iff, Prod.exists]
  constructor
  · rintro ⟨x, t, hmem, n, hn, rfl⟩
    exact ⟨hmem, hn⟩
  · rintro ⟨hmem, hn⟩
    exact ⟨_, _, hmem, _, hn, rfl⟩

def best? (s : Specials) (text : List Char) : Option Hit := match s.hits text with
  | [] => none
  | first :: others => some (.best first others)

theorem mem_of_best? {s : Specials} {text : List Char} {h : Hit} (hbest : s.best? text = some h) :
    h ∈ s.hits text := by
  unfold best? at hbest
  split at hbest
  · cases hbest
  · rename_i first others hhits
    cases hbest
    rw [hhits]
    exact Hit.best_mem first others

/-- **The first special token in a text**: what stands before it, the token, and what stands after it. -/
def next? (s : Specials) (text : List Char) : Option (List Char × Token × List Char) :=
  (s.best? text).map fun h => (text.take h.position, h.token, text.drop (h.position + h.text.length))

theorem length_next?_lt (s : Specials) (text : List Char) {before : List Char} {t : Token} {after : List Char}
    (h : s.next? text = some (before, t, after)) : after.length < text.length := by
  obtain ⟨hit, hbest, heq⟩ := Option.map_eq_some_iff.1 h
  cases heq
  obtain ⟨hmem, hposition⟩ := mem_hits.1 (mem_of_best? hbest)
  have hpos : 0 < hit.text.length := List.length_pos_iff.2 (s.ne_nil _ hmem)
  have hlt := lt_of_positionFrom? hposition
  rw [List.length_drop]
  omega

end Specials
end CausalLM
