import CausalLM.Sampling
/-!
# Proofs.Sampling — a draw gives one of the best candidates

No step of a draw fails, whatever its arithmetic gives.  So the lemmas are about a draw with any functions in place of
the machine's (`Arithmetic`), and one that reads each place where there may be nothing (`Arithmetic.draw?`).  Sorting
permutes the candidates and both cuts leave at least one, so every place it reads is there (`draw?_cold`, `draw?_warm`).
With the arithmetic of the machine it is the draw (`draw?_machine`), which therefore gives an eligible token
(`draw_eligible`).
-/
namespace CausalLM.Sampling

/-! ## A draw with any arithmetic -/

/-- **What a draw computes with**: on binary32 numbers a difference, a product and a quotient, and on binary64 numbers a
power, a sum, a product and a quotient. -/
structure Arithmetic where
  sub : Single → Single → Single
  mul : Single → Single → Single
  div : Single → Single → Single
  exp : Double → Double
  add : Double → Double → Double
  scale : Double → Double → Double
  share : Double → Double → Double

namespace Arithmetic

/-- The arithmetic of the machine. -/
def machine : Arithmetic where
  sub x y := x - y
  mul x y := x * y
  div x y := x / y
  exp := Double.exp
  add x y := x + y
  scale x y := x * y
  share x y := x / y

variable (a : Arithmetic)

def penalise (penalty x : Single) : Single := if x.lt .zero then a.mul x penalty else a.div x penalty

def applyPenalty (p : Sampling) (recent : List Token) (l : List Candidate) : List Candidate :=
  if p.penalty.eq .one || recent.isEmpty then l
  else
    let seen := recent.filterMap Token.index?
    l.map fun (i, x) => if seen.contains i then (i, a.penalise p.penalty x) else (i, x)

/-- **The candidates**: the logits with their indices, the recent ones penalised. -/
def candidates (p : Sampling) (logits : Vec) (recent : List Token) : List Candidate :=
  a.applyPenalty p recent ((List.range logits.length).zip logits)

/-- The candidates with their logits divided by the temperature. -/
def scaled (p : Sampling) (logits : Vec) (recent : List Token) : List Candidate :=
  (a.candidates p logits recent).map fun (i, x) => (i, a.div x p.temperature)

def ranked (p : Sampling) (logits : Vec) (recent : List Token) : List Candidate :=
  let sorted := (a.scaled p logits recent).mergeSort precedes
  if p.topK = 0 then sorted else sorted.take p.topK

def total (l : List Double) : Double := l.foldl a.add .negZero

def probabilities (top : Single) (l : List Candidate) : List Double :=
  let powers := l.map fun (_, x) => a.exp (a.sub x top).widen
  let sum := a.total powers
  powers.map (a.share · sum)

def reach (mass sum : Double) : List Double → Nat
  | [] => 0
  | q :: rest =>
    let sum := a.add sum q
    if mass.le sum then 1 else 1 + reach mass sum rest

def cutMass (p : Sampling) (l : List Double) : List Double :=
  if p.topP.lt .one then l.take (a.reach p.topP.widen .zero l) else l

/-- The place of the first probability at which the sum on top of `sum` passes `r`, if there is one. -/
def passed? (r sum : Double) : List Double → Option Nat
  | [] => none
  | q :: rest =>
    let sum := a.add sum q
    if r.lt sum then some 0 else (passed? r sum rest).map (· + 1)

/-- That place, else the last one, if there is one. -/
def place? (r : Double) (l : List Double) : Option Nat :=
  (a.passed? r .zero l).or (if l.isEmpty then none else some (l.length - 1))

/-- **The draw with every place read where there may be nothing**; `none` is a place out of range. -/
def draw? (p : Sampling) (logits : Vec) (recent : List Token) (g : Generator) :
    Option (Except Error Token × Generator) :=
  if logits.isEmpty then some (.error .notReady, g)
  else if p.temperature.le .zero then do
    let candidates := a.candidates p logits recent
    let first ← candidates[0]?
    return (.ok (.ofIndex (argmax first (candidates.drop 1)).1), g)
  else do
    let ranked := a.ranked p logits recent
    let top ← ranked[0]?
    let kept := a.cutMass p (a.probabilities top.2 ranked)
    let (u, g) := g.nextUnit
    let place ← a.place? (a.scale u (a.total kept)) kept
    let chosen ← ranked[place]?
    return (.ok (.ofIndex chosen.1), g)

end Arithmetic

variable {a : Arithmetic} {p : Sampling} {logits : Vec} {recent : List Token} {g : Generator}

/-! ## The candidates -/

theorem map_fst_candidates (a : Arithmetic) (p : Sampling) (logits : Vec) (recent : List Token) :
    (a.candidates p logits recent).map Prod.fst = List.range logits.length := by
  have hzip : ((List.range logits.length).zip logits).map Prod.fst = List.range logits.length :=
    List.map_fst_zip (Nat.le_of_eq List.length_range)
  unfold Arithmetic.candidates Arithmetic.applyPenalty
  split
  · exact hzip
  · rw [List.map_map]
    refine Eq.trans (List.map_congr_left fun c hc => ?_) hzip
    dsimp only [Function.comp]
    split <;> rfl

theorem map_fst_scaled (a : Arithmetic) (p : Sampling) (logits : Vec) (recent : List Token) :
    (a.scaled p logits recent).map Prod.fst = List.range logits.length := by
  rw [← map_fst_candidates a p logits recent, Arithmetic.scaled, List.map_map]
  rfl

theorem length_candidates (a : Arithmetic) (p : Sampling) (logits : Vec) (recent : List Token) :
    (a.candidates p logits recent).length = logits.length := by
  rw [← List.length_map Prod.fst, map_fst_candidates, List.length_range]

theorem length_scaled (a : Arithmetic) (p : Sampling) (logits : Vec) (recent : List Token) :
    (a.scaled p logits recent).length = logits.length := by
  rw [Arithmetic.scaled, List.length_map, length_candidates]

/-! ## The most likely token -/

theorem better_eq (a b : Candidate) : better a b = a ∨ better a b = b := by
  unfold better
  split
  · exact .inr rfl
  · exact .inl rfl

theorem argmax_mem : ∀ (rest : List Candidate) (first : Candidate), argmax first rest ∈ first :: rest
  | [], first => List.mem_cons_self
  | c :: rest, first => by
    have ih := argmax_mem rest (better first c)
    have hstep : argmax first (c :: rest) = argmax (better first c) rest := rfl
    rw [hstep]
    rcases List.mem_cons.1 ih with h | h
    · rcases better_eq first c with hb | hb
      · rw [h, hb]
        exact List.mem_cons_self
      · rw [h, hb]
        exact List.mem_cons_of_mem _ List.mem_cons_self
    · exact List.mem_cons_of_mem _ (List.mem_cons_of_mem _ h)

/-! ## The order of candidates -/

/-- **The first candidate comes before the second**: its logit is larger in the total order, or the same and its index
is lower. -/
def Before (c d : Candidate) : Prop := d.2.rank < c.2.rank ∨ c.2.rank = d.2.rank ∧ c.1 < d.1

/-- **The candidates in order.** -/
structure Order (order candidates : List Candidate) : Prop where
  perm : order.Perm candidates
  pairwise : order.Pairwise Before

/-- There is one way to put candidates in order. -/
theorem Order.unique {order order' l : List Candidate} (h : Order order l) (h' : Order order' l) : order' = order := by
  refine (h'.perm.trans h.perm.symm).eq_of_pairwise (fun c d _ _ hcd hdc => ?_) h'.pairwise h.pairwise
  unfold Before at hcd hdc
  omega

/-- Sorting puts candidates of different indices in order. -/
theorem order_mergeSort {l : List Candidate} (h : (l.map Prod.fst).Nodup) : Order (l.mergeSort precedes) l := by
  refine ⟨List.mergeSort_perm l precedes, ?_⟩
  have hsorted : (l.mergeSort precedes).Pairwise fun c d => precedes c d = true := by
    refine List.pairwise_mergeSort (fun c d e hcd hde => ?_) (fun c d => ?_) l
    · simp only [precedes, Bool.or_eq_true, Bool.and_eq_true, decide_eq_true_eq] at hcd hde ⊢
      omega
    · simp only [precedes, Bool.or_eq_true, Bool.and_eq_true, decide_eq_true_eq]
      omega
  have hdistinct : (l.mergeSort precedes).Pairwise fun c d => c.1 ≠ d.1 :=
    List.pairwise_map.1 (((List.mergeSort_perm l precedes).map Prod.fst).nodup_iff.2 h)
  refine hsorted.imp₂ (fun c d hle hne => ?_) hdistinct
  simp only [precedes, Bool.or_eq_true, Bool.and_eq_true, decide_eq_true_eq] at hle
  unfold Before
  omega

theorem order_scaled : Order ((a.scaled p logits recent).mergeSort precedes) (a.scaled p logits recent) := by
  apply order_mergeSort
  rw [map_fst_scaled]
  exact List.nodup_range

theorem mem_scaled_of_mem_ranked {c : Candidate} (h : c ∈ a.ranked p logits recent) : c ∈ a.scaled p logits recent := by
  unfold Arithmetic.ranked at h
  dsimp only at h
  split at h
  · exact List.mem_mergeSort.1 h
  · exact List.mem_mergeSort.1 (List.mem_of_mem_take h)

theorem ranked_ne_nil (h : logits ≠ []) : a.ranked p logits recent ≠ [] := by
  have hpos := List.length_pos_iff.2 h
  unfold Arithmetic.ranked
  rw [← List.length_pos_iff]
  dsimp only
  split
  · rwa [List.length_mergeSort, length_scaled]
  · rw [List.length_take, List.length_mergeSort, length_scaled]
    omega

/-! ## The cuts -/

theorem length_probabilities (top : Single) (l : List Candidate) : (a.probabilities top l).length = l.length := by
  simp [Arithmetic.probabilities]

theorem reach_pos (mass sum : Double) {l : List Double} (h : l ≠ []) : 0 < a.reach mass sum l := by
  cases l with
  | nil => exact absurd rfl h
  | cons q rest =>
    unfold Arithmetic.reach
    dsimp only
    split
    · exact Nat.one_pos
    · omega

theorem cutMass_ne_nil {l : List Double} (h : l ≠ []) : a.cutMass p l ≠ [] := by
  unfold Arithmetic.cutMass
  split
  · have hpos := List.length_pos_iff.2 h
    have hreach := reach_pos (a := a) p.topP.widen .zero h
    rw [← List.length_pos_iff, List.length_take]
    omega
  · exact h

theorem length_cutMass_le (l : List Double) : (a.cutMass p l).length ≤ l.length := by
  unfold Arithmetic.cutMass
  split
  · exact List.length_take_le' _ _
  · exact Nat.le_refl _

theorem lt_length_of_passed? {r : Double} : ∀ {l : List Double} {sum : Double} {i : Nat},
    a.passed? r sum l = some i → i < l.length
  | [], _, _, h => by simp [Arithmetic.passed?] at h
  | q :: rest, sum, i, h => by
    unfold Arithmetic.passed? at h
    dsimp only at h
    split at h
    · cases h
      exact Nat.succ_pos _
    · obtain ⟨j, hj, rfl⟩ := Option.map_eq_some_iff.1 h
      have ih := lt_length_of_passed? hj
      rw [List.length_cons]
      omega

/-- **Among probabilities there is a place to pick**, at the latest the last. -/
theorem exists_place? (r : Double) {l : List Double} (h : l ≠ []) : ∃ i, a.place? r l = some i ∧ i < l.length := by
  have hpos := List.length_pos_iff.2 h
  unfold Arithmetic.place?
  cases hpassed : a.passed? r .zero l with
  | some i => exact ⟨i, rfl, lt_length_of_passed? hpassed⟩
  | none =>
    refine ⟨l.length - 1, ?_, by omega⟩
    rw [Option.none_or, if_neg (by rwa [List.isEmpty_iff])]

/-- **In ranked candidates what is picked is there**: the cut by mass leaves a place, and no place behind theirs. -/
theorem exists_chosen {ranked : List Candidate} {top : Candidate} (htop : ranked[0]? = some top) (r : Double) :
    a.cutMass p (a.probabilities top.2 ranked) ≠ [] ∧ ∃ place chosen,
      a.place? r (a.cutMass p (a.probabilities top.2 ranked)) = some place ∧ ranked[place]? = some chosen := by
  have hpos : 0 < ranked.length := (List.getElem?_eq_some_iff.1 htop).1
  have hkept : a.cutMass p (a.probabilities top.2 ranked) ≠ [] := by
    apply cutMass_ne_nil
    rwa [← List.length_pos_iff, length_probabilities]
  have hcut := length_cutMass_le (a := a) (p := p) (a.probabilities top.2 ranked)
  rw [length_probabilities] at hcut
  obtain ⟨place, hplace, hlt⟩ := exists_place? (a := a) r hkept
  exact ⟨hkept, place, _, hplace, List.getElem?_eq_getElem (Nat.lt_of_lt_of_le hlt hcut)⟩

/-! ## The draw -/

theorem draw?_nil : a.draw? p [] recent g = some (.error .notReady, g) := rfl

/-- **At temperature zero or below a candidate is drawn** and the generator stays. -/
theorem draw?_cold (h : logits ≠ []) (hcold : p.temperature.le .zero = true) :
    ∃ c ∈ a.candidates p logits recent, a.draw? p logits recent g = some (.ok (.ofIndex c.1), g) := by
  have hlength : (a.candidates p logits recent).length = logits.length := length_candidates a p logits recent
  unfold Arithmetic.draw?
  rw [if_neg (by rwa [List.isEmpty_iff]), if_pos hcold]
  cases hcandidates : a.candidates p logits recent with
  | nil =>
    rw [hcandidates] at hlength
    exact absurd (List.length_eq_zero_iff.1 hlength.symm) h
  | cons first rest => exact ⟨_, argmax_mem rest first, rfl⟩

/-- **At other temperatures one of the best candidates is drawn** and the generator moves by one step. -/
theorem draw?_warm (h : logits ≠ []) (hwarm : p.temperature.le .zero = false) :
    ∃ c ∈ a.ranked p logits recent, a.draw? p logits recent g = some (.ok (.ofIndex c.1), g.next.2) := by
  have hne : a.ranked p logits recent ≠ [] := ranked_ne_nil h
  unfold Arithmetic.draw?
  rw [if_neg (by rwa [List.isEmpty_iff]), if_neg (by rw [hwarm]; decide)]
  generalize a.ranked p logits recent = ranked at hne ⊢
  obtain ⟨top, htop⟩ : ∃ top, ranked[0]? = some top := ⟨_, List.getElem?_eq_getElem (List.length_pos_iff.2 hne)⟩
  obtain ⟨-, place, chosen, hplace, hchosen⟩ := exists_chosen (a := a) (p := p) htop
    (a.scale g.nextUnit.1 (a.total (a.cutMass p (a.probabilities top.2 ranked))))
  refine ⟨chosen, List.mem_of_getElem? hchosen, ?_⟩
  simp only [htop, Option.bind_eq_bind, Option.bind_some, hplace, hchosen]
  rfl

/-! ## With the arithmetic of the machine -/

theorem reach_machine (mass : Double) : ∀ (l : List Double) (sum : Double),
    Arithmetic.machine.reach mass sum l = reach mass sum l
  | [], _ => rfl
  | q :: rest, sum => by
    rw [Arithmetic.reach, reach, reach_machine mass rest]
    rfl

/-- The walk that stops at the last place gives that place where the other finds none. -/
theorem passed?_machine (r : Double) : ∀ (l : List Double) (sum : Double), l ≠ [] →
    (Arithmetic.machine.passed? r sum l).getD (l.length - 1) = pick r sum l
  | [], _, h => absurd rfl h
  | [q], sum, _ => by
    rw [Arithmetic.passed?, pick]
    split <;> simp [Arithmetic.passed?]
  | q :: d :: rest, sum, _ => by
    have ih := passed?_machine r (d :: rest) (sum + q) (List.cons_ne_nil d rest)
    have hadd : Arithmetic.machine.add sum q = sum + q := rfl
    rw [Arithmetic.passed?, pick, ← ih]
    simp only [hadd, List.isEmpty_cons, Bool.or_false, List.length_cons, Nat.add_sub_cancel]
    split
    · rfl
    · cases Arithmetic.machine.passed? r (sum + q) (d :: rest) with
      | none => exact Nat.add_comm _ _
      | some i => exact Nat.add_comm _ _

theorem place?_machine (r : Double) {l : List Double} (h : l ≠ []) :
    Arithmetic.machine.place? r l = some (pick r .zero l) := by
  rw [← passed?_machine r l .zero h, Arithmetic.place?, if_neg (by rwa [List.isEmpty_iff])]
  cases Arithmetic.machine.passed? r .zero l with
  | none => rfl
  | some i => rfl

theorem cutMass_machine (l : List Double) : Arithmetic.machine.cutMass p l = cutMass p l := by
  rw [Arithmetic.cutMass, cutMass, reach_machine]

theorem candidates_machine :
    Arithmetic.machine.candidates p logits recent = applyPenalty p recent ((List.range logits.length).zip logits) := rfl

theorem ranked_machine : Arithmetic.machine.ranked p logits recent =
    ranked p (applyPenalty p recent ((List.range logits.length).zip logits)) := rfl

theorem probabilities_machine {top : Candidate} {l : List Candidate} (h : l[0]? = some top) :
    Arithmetic.machine.probabilities top.2 l = probabilities l := by
  rw [probabilities, List.head?_eq_getElem?, h]
  rfl

/-- **With the arithmetic of the machine it is the draw**, so that reads no place out of range. -/
theorem draw?_machine : Arithmetic.machine.draw? p logits recent g = some (p.draw logits recent g) := by
  have hlength : (applyPenalty p recent ((List.range logits.length).zip logits)).length = logits.length :=
    length_candidates .machine p logits recent
  unfold draw
  cases hcandidates : applyPenalty p recent ((List.range logits.length).zip logits) with
  | nil =>
    rw [hcandidates] at hlength
    obtain rfl := List.length_eq_zero_iff.1 hlength.symm
    rfl
  | cons first rest =>
    have hne : logits ≠ [] := by
      rintro rfl
      rw [hcandidates] at hlength
      cases hlength
    unfold Arithmetic.draw?
    rw [if_neg (by rwa [List.isEmpty_iff])]
    dsimp only
    split
    · rw [candidates_machine, hcandidates]
      rfl
    · have hranked : ranked p (first :: rest) ≠ [] := by
        rw [← hcandidates]
        exact ranked_ne_nil (a := .machine) hne
      rw [ranked_machine, hcandidates]
      generalize ranked p (first :: rest) = ranked at hranked ⊢
      obtain ⟨top, htop⟩ : ∃ top, ranked[0]? = some top :=
        ⟨_, List.getElem?_eq_getElem (List.length_pos_iff.2 hranked)⟩
      have hprobabilities := probabilities_machine htop
      obtain ⟨hkept, place, chosen, hplace, hchosen⟩ := exists_chosen (a := .machine) (p := p) htop
        (Arithmetic.machine.scale g.nextUnit.1 (Arithmetic.machine.total (cutMass p (probabilities ranked))))
      rw [hprobabilities, cutMass_machine] at hkept hplace
      have hpick : pick (g.nextUnit.1 * total (cutMass p (probabilities ranked))) .zero
          (cutMass p (probabilities ranked)) = place :=
        Option.some.inj ((place?_machine _ hkept).symm.trans hplace)
      simp only [htop, Option.bind_eq_bind, Option.bind_some, hprobabilities, cutMass_machine, hplace, hpick, hchosen]
      rfl

/-! ## What is drawn -/

theorem lt_length_of_mem_candidates {c : Candidate} (h : c ∈ a.candidates p logits recent) : c.1 < logits.length := by
  rw [← List.mem_range, ← map_fst_candidates a p logits recent]
  exact List.mem_map_of_mem h

theorem lt_length_of_mem_ranked {c : Candidate} (h : c ∈ a.ranked p logits recent) : c.1 < logits.length := by
  rw [← List.mem_range, ← map_fst_scaled a p logits recent]
  exact List.mem_map_of_mem (mem_scaled_of_mem_ranked h)

/-- What is kept of ranked candidates stands in front in their order. -/
theorem mem_take_of_mem_ranked {c : Candidate} (h : c ∈ a.ranked p logits recent) (hk : p.topK ≠ 0)
    {order : List Candidate} (horder : Order order (a.scaled p logits recent)) :
    c ∈ order.take (min p.topK logits.length) := by
  obtain rfl := order_scaled.unique horder
  rw [Arithmetic.ranked, if_neg hk] at h
  rwa [← length_scaled a p logits recent, ← horder.perm.length_eq, ← List.take_eq_take_min]

/-- **A draw from logits gives the index of one of them**, and all it does to the generator is one step where it is
used.  Where the candidates are cut to the best, the index is that of one of these. -/
theorem exists_draw? (a : Arithmetic) (p : Sampling) (h : logits ≠ []) (recent : List Token) (g : Generator) :
    ∃ i < logits.length,
    a.draw? p logits recent g = some (.ok (.ofIndex i), if p.temperature.le .zero then g else g.next.2) ∧
      (p.temperature.le .zero = false → p.topK ≠ 0 → ∀ order, Order order (a.scaled p logits recent) →
        ∃ c ∈ order.take (min p.topK logits.length), c.1 = i) := by
  cases htemperature : p.temperature.le .zero with
  | true =>
    obtain ⟨c, hc, hdraw⟩ := draw?_cold (g := g) h htemperature
    exact ⟨c.1, lt_length_of_mem_candidates hc, hdraw, fun hwarm => by cases hwarm⟩
  | false =>
    obtain ⟨c, hc, hdraw⟩ := draw?_warm (g := g) h htemperature
    refine ⟨c.1, lt_length_of_mem_ranked hc, hdraw, fun _ hk order horder => ?_⟩
    exact ⟨c, mem_take_of_mem_ranked hc hk horder, rfl⟩

theorem exists_draw (p : Sampling) {logits : Vec} (h : logits ≠ []) (recent : List Token) (g : Generator) :
    ∃ i g', p.draw logits recent g = (.ok (.ofIndex i), g') ∧ i < logits.length := by
  obtain ⟨i, hi, hdraw, -⟩ := exists_draw? .machine p h recent g
  rw [draw?_machine] at hdraw
  exact ⟨i, _, Option.some.inj hdraw, hi⟩

/-- **The token is one that may be drawn**: the index of a logit, and where the candidates are cut to the best, that
of one of these.  The best are those in front when all candidates are put in order. -/
structure Eligible (a : Arithmetic) (p : Sampling) (logits : Vec) (recent : List Token) (token : Token) : Prop where
  below : token.isBelow logits.length = true
  best : p.temperature.le .zero = false → p.topK ≠ 0 → ∀ order, Order order (a.scaled p logits recent) →
    ∃ c ∈ order.take (min p.topK logits.length), token.index? = some c.1

theorem exists_eligible (a : Arithmetic) (p : Sampling) (h : logits ≠ []) (hlen : logits.length ≤ 2 ^ 31)
    (recent : List Token) (g : Generator) : ∃ token,
    a.draw? p logits recent g = some (.ok token, if p.temperature.le .zero then g else g.next.2) ∧
      Eligible a p logits recent token := by
  obtain ⟨i, hi, hdraw, hbest⟩ := exists_draw? a p h recent g
  have hindex : (Token.ofIndex i).index? = some i := Token.index?_ofIndex (Nat.lt_of_lt_of_le hi hlen)
  refine ⟨.ofIndex i, hdraw, Token.isBelow_iff.2 ⟨i, hindex, hi⟩, fun hwarm hk order horder => ?_⟩
  obtain ⟨c, hc, rfl⟩ := hbest hwarm hk order horder
  exact ⟨c, hc, hindex⟩

/-- **A draw comes to an end within its cuts.**  From no logits nothing is drawn and the generator stays.  From
others, as many as there are tokens, whatever their bits, the knobs, the recent tokens and the generator, an eligible
token is drawn, and the generator moves by one step where the temperature is not zero or below, else it stays.  There
is one order of the candidates.  No place is read out of range, and with any arithmetic in place of the machine's the
same holds. -/
theorem draw_eligible (p : Sampling) (logits : Vec) (recent : List Token) (g : Generator)
    (hlen : logits.length ≤ 2 ^ 31) :
    (logits = [] → p.draw logits recent g = (.error .notReady, g)) ∧
    (logits ≠ [] → ∃ token, p.draw logits recent g =
      (.ok token, if p.temperature.le .zero then g else g.next.2) ∧ Eligible .machine p logits recent token) ∧
    Arithmetic.machine.draw? p logits recent g = some (p.draw logits recent g) ∧
    ∀ a : Arithmetic,
      (∃ order, Order order (a.scaled p logits recent) ∧
        ∀ other, Order other (a.scaled p logits recent) → other = order) ∧
      (logits = [] → a.draw? p logits recent g = some (.error .notReady, g)) ∧
      (logits ≠ [] → ∃ token, a.draw? p logits recent g =
        some (.ok token, if p.temperature.le .zero then g else g.next.2) ∧ Eligible a p logits recent token) := by
  refine ⟨fun h => ?_, fun h => ?_, draw?_machine,
    fun a => ⟨?_, fun h => ?_, fun h => exists_eligible a p h hlen recent g⟩⟩
  · subst h
    exact Option.some.inj (draw?_machine.symm.trans draw?_nil)
  · obtain ⟨token, hdraw, heligible⟩ := exists_eligible .machine p h hlen recent g
    rw [draw?_machine] at hdraw
    exact ⟨token, Option.some.inj hdraw, heligible⟩
  · exact ⟨_, order_scaled, fun _ h => order_scaled.unique h⟩
  · subst h
    exact draw?_nil

/-- A NaN and an infinity, of which the best one is kept. -/
theorem draw_eligible_nan :
    let p := { default with temperature := .one, topK := 1 }
    let logits : Vec := [⟨0x7fc00000⟩, .infinity]
    logits.length ≤ 2 ^ 31 ∧ ∃ token, p.draw logits [⟨1⟩] ⟨7⟩ = (.ok token, (Generator.mk 7).next.2) ∧
      Eligible .machine p logits [⟨1⟩] token := by
  have hlen : ([⟨0x7fc00000⟩, .infinity] : Vec).length ≤ 2 ^ 31 := by decide
  obtain ⟨-, hdraw, -⟩ :=
    draw_eligible { default with temperature := .one, topK := 1 } [⟨0x7fc00000⟩, .infinity] [⟨1⟩] ⟨7⟩ hlen
  exact ⟨hlen, hdraw (List.cons_ne_nil _ _)⟩

end CausalLM.Sampling
