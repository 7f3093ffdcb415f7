import CausalLM.Dictionary
import Mathlib.Algebra.Order.Ring.Nat
import Mathlib.Data.List.Dedup
/-!
# Proofs.Dictionary — entries put in one after the other

No name stands twice in what comes of it, so there are as many values as names (`length_insertAll`), and each is that of
the last entry with its name (`get?_insertAll`).  Entries of different names are put in as they are
(`insertAll_of_nodup`).
-/
namespace CausalLM

namespace Dictionary

variable {α : Type}

/-- The dictionary with these entries put in, in order. -/
def insertAll (d : Dictionary α) (entries : List (String × α)) : Dictionary α :=
  entries.foldl (fun d p => insert p.1 p.2 d) d

def names (d : Dictionary α) : List String := List.map Prod.fst d

@[simp] theorem names_nil : names ([] : Dictionary α) = [] := rfl

@[simp] theorem names_cons (p : String × α) (d : Dictionary α) : names (p :: d) = p.1 :: names d := rfl

theorem get?_insertAll (name : String) (entries : List (String × α)) (d : Dictionary α) :
    get? (insertAll d entries) name = ((entries.reverse.find? (·.1 == name)).map (·.2)).or (get? d name) :=
  get?_foldl_insert Prod.fst Prod.snd name entries d

theorem names_insert (name : String) (v : α) : ∀ d : Dictionary α,
    names (insert name v d) = if name ∈ names d then names d else names d ++ [name]
  | [] => rfl
  | (k, w) :: d => by
    have ih := names_insert name v d
    rw [insert, names_cons]
    by_cases hname : k = name
    · rw [if_pos hname, names_cons, hname, if_pos List.mem_cons_self]
    · rw [if_neg hname, names_cons, ih]
      by_cases hold : name ∈ names d
      · rw [if_pos hold, if_pos (List.mem_cons_of_mem _ hold)]
      · rw [if_neg hold, if_neg (by simp [hold, Ne.symm hname]), List.cons_append]

/-- No name stands twice, however many entries are put in. -/
theorem nodup_names_insertAll : ∀ (entries : List (String × α)) {d : Dictionary α}, (names d).Nodup →
    (names (insertAll d entries)).Nodup
  | [], _, h => h
  | p :: entries, d, h => by
    refine nodup_names_insertAll entries ?_
    rw [names_insert]
    split
    · exact h
    · rename_i hnew
      exact List.Nodup.append h (List.nodup_singleton _) (by simpa using hnew)

theorem mem_names_insertAll {name : String} : ∀ {entries : List (String × α)} {d : Dictionary α},
    name ∈ names (insertAll d entries) ↔ name ∈ names d ∨ name ∈ entries.map Prod.fst
  | [], d => by simp [insertAll]
  | p :: entries, d => by
    rw [insertAll, List.foldl_cons, ← insertAll, mem_names_insertAll, names_insert, List.map_cons, List.mem_cons]
    split
    · rename_i hold
      constructor
      · rintro (h | h)
        · exact .inl h
        · exact .inr (.inr h)
      · rintro (h | rfl | h)
        · exact .inl h
        · exact .inl hold
        · exact .inr h
    · rw [List.mem_append, List.mem_singleton, or_assoc]

/-- **There are as many values as names.** -/
theorem length_insertAll (entries : List (String × α)) :
    (insertAll [] entries).length = (entries.map Prod.fst).dedup.length := by
  have hnodup : (names (insertAll [] entries)).Nodup := nodup_names_insertAll entries List.nodup_nil
  have hperm : (names (insertAll [] entries)).Perm (entries.map Prod.fst).dedup := by
    refine (List.perm_ext_iff_of_nodup hnodup (List.nodup_dedup _)).2 fun name => ?_
    rw [mem_names_insertAll, List.mem_dedup]
    simp
  rw [← hperm.length_eq, names, List.length_map]

/-- What is put in under a new name stands behind the others. -/
theorem insert_of_not_mem {name : String} (v : α) : ∀ {d : Dictionary α}, name ∉ names d →
    insert name v d = d ++ [(name, v)]
  | [], _ => rfl
  | (k, w) :: d, h => by
    rw [names_cons, List.mem_cons, not_or] at h
    rw [insert, if_neg (Ne.symm h.1), insert_of_not_mem v h.2, List.cons_append]

/-- Entries of different names are put in as they are. -/
theorem insertAll_of_nodup : ∀ {entries : List (String × α)} {d : Dictionary α},
    (names d ++ entries.map Prod.fst).Nodup → insertAll d entries = d ++ entries
  | [], d, _ => (List.append_nil d).symm
  | (k, v) :: entries, d, h => by
    have hnew : k ∉ names d := fun hk => List.disjoint_of_nodup_append h hk List.mem_cons_self
    rw [insertAll, List.foldl_cons, ← insertAll, insert_of_not_mem v hnew]
    rw [insertAll_of_nodup (by simpa [names] using h), List.append_assoc, List.singleton_append]

/-- A value that is replaced leaves a sum. -/
theorem sum_insert_le (size : α → Nat) (name : String) (v : α) : ∀ d : Dictionary α,
    (List.map (fun p => size p.2) (insert name v d)).sum ≤ (List.map (fun p => size p.2) d).sum + size v
  | [] => by simp [insert]
  | (k, w) :: d => by
    have ih := sum_insert_le size name v d
    rw [insert]
    split
    · simp only [List.map_cons, List.sum_cons]
      omega
    · simp only [List.map_cons, List.sum_cons]
      omega

theorem sum_insertAll_le (size : α → Nat) : ∀ (entries : List (String × α)) (d : Dictionary α),
    (List.map (fun p => size p.2) (insertAll d entries)).sum ≤
      (List.map (fun p => size p.2) d).sum + (entries.map fun p => size p.2).sum
  | [], _ => Nat.le_refl _
  | p :: entries, d => by
    have hrest := sum_insertAll_le size entries (insert p.1 p.2 d)
    have hfirst := sum_insert_le size p.1 p.2 d
    rw [List.map_cons, List.sum_cons]
    exact Nat.le_trans hrest (by omega)

end Dictionary

end CausalLM
