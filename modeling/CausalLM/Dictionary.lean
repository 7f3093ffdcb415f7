/-!
# Dictionary — values by name

A short list of named values in which no name stands twice.  Inserting under a name that is there replaces the value
in its place, so the order is that of first insertion.
-/
namespace CausalLM

/-- **Values by name.** -/
abbrev Dictionary (α : Type) := List (String × α)

namespace Dictionary

variable {α : Type}

def get? (d : Dictionary α) (name : String) : Option α := d.lookup name

/-- Puts a value under a name, in place of an earlier one or at the end. -/
def insert (name : String) (value : α) : Dictionary α → Dictionary α
  | [] => [(name, value)]
  | (k, v) :: rest => if k = name then (name, value) :: rest else (k, v) :: insert name value rest

def erase (name : String) : Dictionary α → Dictionary α
  | [] => []
  | (k, v) :: rest => if k = name then erase name rest else (k, v) :: erase name rest

theorem get?_insert (name k : String) (value : α) : ∀ d : Dictionary α,
    get? (insert name value d) k = if k = name then some value else get? d k
  | [] => by by_cases h : k = name <;> simp [insert, get?, List.lookup_cons, h, beq_eq_false_iff_ne.2]
  | (k', v) :: rest => by
    have ih := get?_insert name k value rest
    unfold insert
    by_cases h' : k' = name <;> by_cases h : k = k' <;>
      simp_all [get?, List.lookup_cons, beq_eq_false_iff_ne.2]

/-- **The last value put in under a name counts.** -/
theorem get?_foldl_insert {β : Type} (name : β → String) (value : β → α) (k : String) : ∀ (l : List β) (d : Dictionary α),
    get? (l.foldl (fun d b => insert (name b) (value b) d) d) k =
      ((l.reverse.find? (name · == k)).map value).or (get? d k)
  | [], _ => rfl
  | b :: l, d => by
    rw [List.foldl_cons, get?_foldl_insert name value k l, get?_insert, List.reverse_cons, List.find?_append]
    cases l.reverse.find? (name · == k) with
    | some c => rfl
    | none =>
      by_cases h : k = name b
      · simp [h]
      · have hne : (name b == k) = false := beq_eq_false_iff_ne.2 (Ne.symm h)
        simp [h, hne]

theorem get?_erase (name k : String) : ∀ d : Dictionary α,
    get? (erase name d) k = if k = name then none else get? d k
  | [] => by simp [erase, get?]
  | (k', v) :: rest => by
    have ih := get?_erase name k rest
    unfold get? at *
    rw [erase]
    by_cases h' : k' = name
    · rw [if_pos h', ih]
      by_cases h : k = name
      · simp [h]
      · simp [List.lookup_cons, h, beq_eq_false_iff_ne.2 (show k ≠ k' from h' ▸ h)]
    · rw [if_neg h', List.lookup_cons, List.lookup_cons, ih]
      by_cases h : k = k'
      · subst h; simp [h']
      · simp [beq_eq_false_iff_ne.2 h]

end Dictionary
end CausalLM
