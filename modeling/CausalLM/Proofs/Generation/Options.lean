import CausalLM.Generation.Options
/-!
# Proofs.Generation.Options — which members count

A loose member can be used if its name is that of an option and its value is of the option's kind.  All other members
are passed over, with one exception: two options have two names, and under the first name also a value of another kind
hides the second (`Alias.Hides`).  So two maps with the same usable members give the same options exactly if the same
names are hidden in both (`ofMembers_eq_iff`); without its unusable members a map gives the same options exactly if
nothing was hidden (`ofMembers_usablePart_iff`).
-/
namespace CausalLM.Generation.Options

variable {m m' : List (String × Json)} {name k : String} {v : Json}

/-! ## Members -/

/-- What the value of an option has to be. -/
inductive Kind where
  | whole
  | number
  deriving DecidableEq, Repr

/-- **The options by name.** -/
def kind? : String → Option Kind
  | "num_predict" | "max_tokens" | "batch_size" | "n_batch" | "top_k" | "repeat_last_n" | "seed" => some .whole
  | "temperature" | "top_p" | "repeat_penalty" | "context_erase" => some .number
  | _ => none

/-- **The member can be used**: the name is that of an option, and the value is of its kind. -/
def usable (name : String) (v : Json) : Bool :=
  match kind? name with
  | some .whole => v.nat?.isSome
  | some .number => v.double?.isSome
  | none => false

/-- The member under a name, if it can be used. -/
def usable? (m : List (String × Json)) (name : String) : Option Json := (member? m name).filter (usable name)

/-- **The map without the members that cannot be used.** -/
def usablePart (m : List (String × Json)) : List (String × Json) := m.filter fun p => (usable? m p.1).isSome

/-- Names are kept or dropped with all that stands under them. -/
theorem member?_filter (keep : String → Bool) (m : List (String × Json)) (name : String) :
    member? (m.filter fun p => keep p.1) name = if keep name then member? m name else none := by
  rw [member?, ← List.filter_reverse, List.find?_filter]
  have hsame : (fun p : String × Json => decide (keep p.1 = true ∧ (p.1 == name) = true)) =
      fun p => keep name && p.1 == name := by
    funext p
    by_cases hname : p.1 = name
    · simp [hname]
    · simp [hname]
  rw [hsame]
  cases keep name with
  | true => simp [member?]
  | false => simp

theorem member?_usablePart (m : List (String × Json)) (name : String) :
    member? (usablePart m) name = usable? m name := by
  rw [usablePart, member?_filter fun name => (usable? m name).isSome, usable?]
  cases member? m name with
  | none => rfl
  | some v => cases husable : usable name v <;> simp [Option.filter, husable]

theorem member?_append (m : List (String × Json)) (k : String) (v : Json) (name : String) :
    member? (m ++ [(k, v)]) name = if name = k then some v else member? m name := by
  rw [member?, List.reverse_append, List.reverse_singleton, List.singleton_append, List.find?_cons]
  by_cases hname : name = k
  · simp [hname]
  · have hne : (k == name) = false := beq_eq_false_iff_ne.2 (Ne.symm hname)
    simp [hname, hne, member?]

theorem usable?_usablePart (m : List (String × Json)) (name : String) :
    usable? (usablePart m) name = usable? m name := by
  rw [usable?, member?_usablePart, usable?, Option.filter_filter]
  simp

/-- A new member that cannot be used adds nothing. -/
theorem usable?_append (hnew : member? m k = none) (hv : usable k v = false) (name : String) :
    usable? (m ++ [(k, v)]) name = usable? m name := by
  rw [usable?, member?_append, usable?]
  split
  · rename_i hname
    rw [hname, hnew]
    simp [hv]
  · rfl

theorem filter_bind_isSome {α β : Type} {keep : α → Bool} {f : α → Option β} (hkeep : ∀ a, keep a = (f a).isSome)
    (x : Option α) : (x.filter keep).bind f = x.bind f := by
  cases x with
  | none => rfl
  | some a => cases hf : f a <;> simp [Option.filter, hkeep, hf]

theorem bind_nat?_eq (hkind : kind? name = some .whole) (m : List (String × Json)) :
    (usable? m name).bind Json.nat? = (member? m name).bind Json.nat? :=
  filter_bind_isSome (fun v => by rw [usable, hkind]) _

theorem bind_double?_eq (hkind : kind? name = some .number) (m : List (String × Json)) :
    (usable? m name).bind Json.double? = (member? m name).bind Json.double? :=
  filter_bind_isSome (fun v => by rw [usable, hkind]) _

/-! ## Two names of one option -/

/-- **Two names of one option**, and its value where neither has one.  The second name counts only where the first is
absent. -/
structure Alias where
  first : String
  second : String
  fallback : Nat

def aliases : List Alias :=
  [⟨"num_predict", "max_tokens", default.maxTokens⟩, ⟨"batch_size", "n_batch", default.batch⟩]

namespace Alias

variable {a : Alias}

def value (a : Alias) (m : List (String × Json)) : Nat := (natOf m a.first a.second).getD a.fallback

/-- **The first name hides the second**: its value cannot be used, and that of the second says something else than the
fallback. -/
def Hides (a : Alias) (m : List (String × Json)) : Prop :=
  (∃ v, member? m a.first = some v ∧ v.nat? = none) ∧ ∃ n, (member? m a.second).bind Json.nat? = some n ∧ n ≠ a.fallback

/-- What the option is where nothing is hidden: the value of the first usable name. -/
def plain (a : Alias) (m : List (String × Json)) : Nat :=
  (((member? m a.first).bind Json.nat?).or ((member? m a.second).bind Json.nat?)).getD a.fallback

/-- A name that hides another leaves the fallback in place of its value. -/
theorem value_of_hides (h : a.Hides m) : a.value m = a.fallback ∧ a.plain m ≠ a.fallback := by
  obtain ⟨⟨v, hfirst, hv⟩, n, hsecond, hn⟩ := h
  refine ⟨?_, ?_⟩
  · simp [value, natOf, hfirst, hv]
  · simpa [plain, hfirst, hv, hsecond] using hn

theorem value_of_not_hides (h : ¬a.Hides m) : a.value m = a.plain m := by
  cases hfirst : member? m a.first with
  | none => simp [value, plain, natOf, hfirst]
  | some v =>
    cases hv : v.nat? with
    | some n => simp [value, plain, natOf, hfirst, hv]
    | none =>
      cases hsecond : (member? m a.second).bind Json.nat? with
      | none => simp [value, plain, natOf, hfirst, hv, hsecond]
      | some n =>
        have hn : n = a.fallback := Decidable.byContradiction fun hne => h ⟨⟨v, hfirst, hv⟩, n, hsecond, hne⟩
        simp [value, plain, natOf, hfirst, hv, hsecond, hn]

theorem value_eq_iff (hplain : a.plain m = a.plain m') : a.value m = a.value m' ↔ (a.Hides m ↔ a.Hides m') := by
  by_cases h : a.Hides m
  · obtain ⟨hvalue, hne⟩ := value_of_hides h
    by_cases h' : a.Hides m'
    · simp [h, h', hvalue, (value_of_hides h').1]
    · rw [hvalue, value_of_not_hides h', ← hplain]
      simp [h, h', Ne.symm hne]
  · by_cases h' : a.Hides m'
    · obtain ⟨hvalue, hne⟩ := value_of_hides h'
      rw [value_of_not_hides h, hvalue, hplain]
      simp [h, h', hne]
    · simp [h, h', value_of_not_hides h, value_of_not_hides h', hplain]

theorem kinds (ha : a ∈ aliases) : kind? a.first = some .whole ∧ kind? a.second = some .whole := by
  simp only [aliases, List.mem_cons, List.not_mem_nil, or_false] at ha
  obtain rfl | rfl := ha <;> decide

theorem plain_eq (ha : a ∈ aliases) (h : ∀ name, usable? m name = usable? m' name) : a.plain m = a.plain m' := by
  simp only [plain, ← bind_nat?_eq (kinds ha).1, ← bind_nat?_eq (kinds ha).2, h]

end Alias

/-! ## Options -/

/-- **Of two maps with the same usable members the options are the same exactly if the same names hide others.** -/
theorem ofMembers_eq_iff (h : ∀ name, usable? m name = usable? m' name) :
    ofMembers m = ofMembers m' ↔ ∀ a ∈ aliases, (a.Hides m ↔ a.Hides m') := by
  have hnat : ∀ name, kind? name = some .whole →
      (member? m name).bind Json.nat? = (member? m' name).bind Json.nat? := fun name hkind => by
    rw [← bind_nat?_eq hkind, h, bind_nat?_eq hkind]
  have hsingle : ∀ name, kind? name = some .number → singleOf m name = singleOf m' name := fun name hkind => by
    rw [singleOf, ← bind_double?_eq hkind, h, bind_double?_eq hkind, singleOf]
  -- an option with one name is read off its usable member, so that only those with two are left
  have hvalues : ofMembers m = ofMembers m' ↔ ∀ a ∈ aliases, a.value m = a.value m' := by
    simp only [ofMembers, hnat "top_k" rfl, hnat "repeat_last_n" rfl, hnat "seed" rfl, hsingle "temperature" rfl,
      hsingle "top_p" rfl, hsingle "repeat_penalty" rfl, hsingle "context_erase" rfl, mk.injEq, and_true, aliases,
      List.forall_mem_cons, List.not_mem_nil, false_implies, implies_true, Alias.value]
  rw [hvalues]
  exact forall₂_congr fun a ha => Alias.value_eq_iff (Alias.plain_eq ha h)

theorem not_hides_usablePart {a : Alias} (ha : a ∈ aliases) (m : List (String × Json)) : ¬a.Hides (usablePart m) := by
  rintro ⟨⟨v, hfirst, hv⟩, -⟩
  rw [member?_usablePart, usable?, Option.filter_eq_some_iff, usable, (Alias.kinds ha).1] at hfirst
  simp [hv] at hfirst

/-- A new member that cannot be used hides nothing but under a first name. -/
theorem hides_append_iff {a : Alias} (ha : a ∈ aliases) (hne : k ≠ a.first) (hnew : member? m k = none)
    (hv : usable k v = false) : a.Hides (m ++ [(k, v)]) ↔ a.Hides m := by
  have hsecond : (member? (m ++ [(k, v)]) a.second).bind Json.nat? = (member? m a.second).bind Json.nat? := by
    rw [← bind_nat?_eq (Alias.kinds ha).2, usable?_append hnew hv, bind_nat?_eq (Alias.kinds ha).2]
  rw [Alias.Hides, Alias.Hides, hsecond, member?_append, if_neg (Ne.symm hne)]

/-- **Members that cannot be used matter only where one hides a usable one.**  Without them a map gives the same options
exactly if nothing was hidden; one more of them gives the same options exactly if it hides nothing. -/
theorem ofMembers_usablePart_iff (m : List (String × Json)) :
    (ofMembers (usablePart m) = ofMembers m ↔ ∀ a ∈ aliases, ¬a.Hides m) ∧
      ∀ name v, member? m name = none → usable name v = false →
        (ofMembers (m ++ [(name, v)]) = ofMembers m ↔
          ∀ a ∈ aliases, name = a.first → ¬a.Hides (m ++ [(name, v)])) := by
  refine ⟨?_, fun name v hnew hv => ?_⟩
  · rw [ofMembers_eq_iff (usable?_usablePart m)]
    refine forall₂_congr fun a ha => ?_
    simp [not_hides_usablePart ha m]
  · rw [ofMembers_eq_iff (usable?_append hnew hv)]
    refine forall₂_congr fun a ha => ?_
    by_cases hname : name = a.first
    · have hfirst : ¬a.Hides m := by
        rintro ⟨⟨w, hw, -⟩, -⟩
        rw [← hname, hnew] at hw
        cases hw
      simp [hname, hfirst]
    · simp [hname, hides_append_iff ha hname hnew hv]

/-- Three members out of four cannot be used, and none of them stands in front of another name of its option. -/
def mixed : List (String × Json) :=
  [("bogus", .bool true), ("num_predict", .number (.natural 5)), ("max_tokens", .string "many"), ("top_p", .null)]

theorem ofMembers_usablePart_iff_mixed : ofMembers (usablePart mixed) = ofMembers mixed ∧
    ofMembers (mixed ++ [("batch_size", .bool false)]) = ofMembers mixed := by
  obtain ⟨hpart, hnew⟩ := ofMembers_usablePart_iff mixed
  -- neither second name has a usable value
  have hsecond : ∀ a ∈ aliases, (member? (mixed ++ [("batch_size", .bool false)]) a.second).bind Json.nat? = none ∧
      (member? mixed a.second).bind Json.nat? = none := by
    simp only [aliases, List.forall_mem_cons, List.not_mem_nil, false_implies, implies_true, and_true]
    exact ⟨⟨rfl, rfl⟩, rfl, rfl⟩
  refine ⟨hpart.2 fun a ha h => ?_, (hnew _ _ rfl rfl).2 fun a ha _ h => ?_⟩
  · obtain ⟨-, n, hn, -⟩ := h
    rw [(hsecond a ha).2] at hn
    cases hn
  · obtain ⟨-, n, hn, -⟩ := h
    rw [(hsecond a ha).1] at hn
    cases hn

/-- A number of tokens behind a text under the other name. -/
def obscured : List (String × Json) := [("num_predict", .string "many"), ("max_tokens", .number (.natural 5))]

/-- **A value that cannot be used hides one that can.** -/
theorem ofMembers_usablePart_ne : ofMembers (usablePart obscured) ≠ ofMembers obscured := by
  intro h
  have hpart : (ofMembers (usablePart obscured)).maxTokens = 5 := rfl
  have hwhole : (ofMembers obscured).maxTokens = 200 := rfl
  rw [h, hwhole] at hpart
  exact absurd hpart (by decide)

end CausalLM.Generation.Options
