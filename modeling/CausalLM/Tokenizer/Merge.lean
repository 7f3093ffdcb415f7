import Std.Data.HashMap
/-!
# Tokenizer.Merge — joining the pieces of a word

A word starts as single characters.  Of all adjacent pairs that have a rank, the one with the lowest rank is joined
wherever it stands, from left to right; this goes on until no adjacent pair has a rank.  Every round joins at least
one pair, so a word of `n` pieces takes fewer than `n` rounds.
-/
namespace CausalLM.Merge

abbrev Pair := String × String

/-- The ranks of pairs that may be joined, the lowest first. -/
abbrev Ranks := Std.HashMap Pair Nat

/-- The pair that a line of two pieces with a blank between them names; without a blank it names none. -/
def pairOfLine (line : String) : Option Pair :=
  let left := line.toList.takeWhile (· ≠ ' ')
  match line.toList.dropWhile (· ≠ ' ') with
  | _ :: right => some (String.ofList left, String.ofList right)
  | [] => none

/-- **The ranks of merge lines**: a line's rank is its place.  A pair named twice has the later place. -/
def ranksOf (lines : List String) : Ranks :=
  lines.zipIdx.foldl
    (fun ranks (line, place) => match pairOfLine line with
      | some pair => ranks.insert pair place
      | none => ranks)
    ∅

def pairs : List String → List Pair
  | a :: b :: rest => (a, b) :: pairs (b :: rest)
  | _ => []

/-- The better of the best pair so far and one more: the lower rank, the earlier of equals. -/
def better (ranks : Ranks) (best : Option (Pair × Nat)) (p : Pair) : Option (Pair × Nat) :=
  match ranks[p]?, best with
  | none, best => best
  | some r, none => some (p, r)
  | some r, some (q, s) => if r < s then some (p, r) else some (q, s)

/-- The pair with the lowest rank, the first of equals, on top of the best before. -/
def lowest (ranks : Ranks) (best : Option (Pair × Nat)) (l : List Pair) : Option (Pair × Nat) :=
  l.foldl (better ranks) best

/-- Joins a pair wherever it stands, from left to right. -/
def join (p : Pair) : List String → List String
  | a :: b :: rest => if a = p.1 ∧ b = p.2 then (a ++ b) :: join p rest else a :: join p (b :: rest)
  | word => word

theorem length_join_le (p : Pair) (word : List String) : (join p word).length ≤ word.length := by
  fun_induction join p word with
  | case1 a b rest h ih => simp; omega
  | case2 a b rest h ih => simp at *; omega
  | case3 => exact Nat.le_refl _

theorem length_join_lt {p : Pair} {word : List String} (h : p ∈ pairs word) :
    (join p word).length < word.length := by
  fun_induction join p word with
  | case1 a b rest hp ih => have := length_join_le p rest; simp; omega
  | case2 a b rest hp ih =>
    rw [pairs, List.mem_cons] at h
    rcases h with rfl | h
    · exact absurd ⟨rfl, rfl⟩ hp
    · have := ih h
      simp at *
      omega
  | case3 word hw =>
    rcases word with _ | ⟨a, _ | ⟨b, rest⟩⟩
    · simp [pairs] at h
    · simp [pairs] at h
    · exact absurd rfl (hw a b rest)

theorem better_eq {ranks : Ranks} {best : Option (Pair × Nat)} {q p : Pair} {r : Nat}
    (h : better ranks best q = some (p, r)) : best = some (p, r) ∨ p = q := by
  unfold better at h
  split at h
  · exact .inl h
  · simp_all
  · split at h <;> simp_all

theorem lowest_mem {ranks : Ranks} {p : Pair} {r : Nat} : ∀ (l : List Pair) (best : Option (Pair × Nat)),
    lowest ranks best l = some (p, r) → best = some (p, r) ∨ p ∈ l
  | [], _, h => .inl h
  | q :: rest, best, h => by
    rcases lowest_mem rest (better ranks best q) h with h | h
    · rcases better_eq h with h | rfl
      · exact .inl h
      · exact .inr List.mem_cons_self
    · exact .inr (List.mem_cons_of_mem _ h)

theorem mem_of_lowest {ranks : Ranks} {l : List Pair} {p : Pair} {r : Nat}
    (h : lowest ranks none l = some (p, r)) : p ∈ l :=
  (lowest_mem l none h).resolve_left (by simp)

/-- **Joins until no adjacent pair has a rank.** -/
def all (ranks : Ranks) (word : List String) : List String :=
  match h : lowest ranks none (pairs word) with
  | none => word
  | some (p, _) =>
    have : (join p word).length < word.length := length_join_lt (mem_of_lowest h)
    all ranks (join p word)
termination_by word.length

end CausalLM.Merge
