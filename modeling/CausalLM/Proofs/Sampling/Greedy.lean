import CausalLM.Proofs.Number.Arithmetic
import CausalLM.Proofs.Sampling
/-!
# Proofs.Sampling.Greedy — the most likely token and the first of the order

Below temperature zero the most likely token is found by a scan that compares as IEEE does and stays with the first of
equal logits (`Leads`, `leads_argmax`).  Above it the candidates are sorted by the total order and then by index, and
what stands in front comes before all others (`Heads`).  The two orders differ at the zeros only: IEEE takes them for
equal, the total order puts `+0` before `-0`.  So the tokens have equal logits, and differ exactly where the scan stops
at a `-0` and there is a `+0` (`heads_eq_leads_iff`).  At temperature one the logits are sorted as they are, so
this is what a draw from the best one gives (`draw_greedy_and_best`).
-/
namespace CausalLM

/-! ## The two orders of numbers -/

namespace Single

variable {x y : Single}

theorem lt_iff_place (hx : x.isNaN = false) (hy : y.isNaN = false) : x.lt y = true ↔ x.place < y.place := by
  rw [lt, hx, hy, Bool.not_false, Bool.true_and, Bool.true_and, decide_eq_true_eq]

theorem eq_iff_place (hx : x.isNaN = false) (hy : y.isNaN = false) : x.eq y = true ↔ x.place = y.place := by
  rw [eq, hx, hy, Bool.not_false, Bool.true_and, Bool.true_and, decide_eq_true_eq]

/-- The total order moves what is below zero by one, and so tells the zeros apart. -/
theorem rank_of_place (x : Single) : x.place ≤ 0 ∧ x.rank = x.place - 1 ∨ 0 ≤ x.place ∧ x.rank = x.place := by
  unfold place rank
  cases x.isNegative with
  | true => exact .inl ⟨by simp, rfl⟩
  | false => exact .inr ⟨Int.natCast_nonneg _, rfl⟩

theorem rank_lt_of_place_lt (h : x.place < y.place) : x.rank < y.rank := by
  have hx := rank_of_place x
  have hy := rank_of_place y
  omega

/-- **Numbers of one place that the total order tells apart are the zeros.** -/
theorem zeros_of_place_eq (h : x.place = y.place) (hlt : x.rank < y.rank) : x = negZero ∧ y = zero := by
  have hx := rank_of_place x
  have hy := rank_of_place y
  have hneg : x.rank = negZero.rank := by
    have : negZero.rank = -1 := by decide
    omega
  have hzero : y.rank = zero.rank := by
    have : zero.rank = 0 := by decide
    omega
  exact ⟨rank_injective hneg, rank_injective hzero⟩

end Single

namespace Sampling

variable {a : Arithmetic} {p q : Sampling} {logits : Vec} {recent : List Token} {g : Generator}
  {c d : Candidate} {l : List Candidate}

/-- None of the logits is NaN. -/
def Comparable (l : List Candidate) : Prop := ∀ c ∈ l, c.2.isNaN = false

/-- **The first of the largest**: no logit is larger, and those of lower indices are smaller. -/
structure Leads (c : Candidate) (l : List Candidate) : Prop where
  mem : c ∈ l
  largest : ∀ d ∈ l, c.2.lt d.2 = false
  first : ∀ d ∈ l, d.1 < c.1 → d.2.lt c.2 = true

/-- **The first in order**: all others come behind it. -/
structure Heads (c : Candidate) (l : List Candidate) : Prop where
  mem : c ∈ l
  before : ∀ d ∈ l, d ≠ c → Before c d

/-! ## The scan -/

/-- The first of the largest, told by the places of the logits. -/
theorem leads_iff_place (hl : Comparable l) :
    Leads c l ↔ c ∈ l ∧ ∀ d ∈ l, d.2.place ≤ c.2.place ∧ (d.1 < c.1 → d.2.place < c.2.place) := by
  have hlt : ∀ {d e : Candidate}, d ∈ l → e ∈ l → (d.2.lt e.2 = true ↔ d.2.place < e.2.place) :=
    fun hd he => Single.lt_iff_place (hl _ hd) (hl _ he)
  constructor
  · rintro ⟨hmem, hlargest, hfirst⟩
    refine ⟨hmem, fun d hd => ⟨?_, fun hlower => (hlt hd hmem).1 (hfirst d hd hlower)⟩⟩
    have hnot := hlargest d hd
    rw [← Bool.not_eq_true, hlt hmem hd] at hnot
    exact Int.not_lt.1 hnot
  · rintro ⟨hmem, hplace⟩
    refine ⟨hmem, fun d hd => ?_, fun d hd hlower => (hlt hd hmem).2 ((hplace d hd).2 hlower)⟩
    rw [← Bool.not_eq_true, hlt hmem hd]
    exact Int.not_lt.2 (hplace d hd).1

theorem Leads.place (h : Leads c l) (hl : Comparable l) (hd : d ∈ l) :
    d.2.place ≤ c.2.place ∧ (d.1 < c.1 → d.2.place < c.2.place) := ((leads_iff_place hl).1 h).2 d hd

theorem Comparable.of_subset {l' : List Candidate} (h : Comparable l) (hsub : l' ⊆ l) : Comparable l' :=
  fun d hd => h d (hsub hd)

/-- **The scan finds the first of the largest**, where the candidates stand in the order of their indices. -/
theorem leads_argmax : ∀ {rest : List Candidate} {first : Candidate}, Comparable (first :: rest) →
    (first :: rest).Pairwise (fun c d => c.1 < d.1) → Leads (argmax first rest) (first :: rest)
  | [], first, hl, _ => by
    refine (leads_iff_place hl).2 ⟨List.mem_cons_self, fun d hd => ?_⟩
    obtain rfl := List.mem_singleton.1 hd
    exact ⟨Int.le_refl _, fun hlower => absurd hlower (Nat.lt_irrefl _)⟩
  | c :: rest, first, hl, hsorted => by
    obtain ⟨hfirst, hrest⟩ := List.pairwise_cons.1 hsorted
    have hlt := Single.lt_iff_place (hl first List.mem_cons_self) (hl c (List.mem_cons_of_mem _ List.mem_cons_self))
    have hstep : argmax first (c :: rest) = argmax (better first c) rest := rfl
    rw [hstep, leads_iff_place hl, List.forall_mem_cons, List.forall_mem_cons]
    by_cases hsmaller : first.2.lt c.2 = true
    · -- the scan goes on from the second candidate, and the first one is smaller
      have hbetter : better first c = c := if_pos hsmaller
      have hsub : Comparable (c :: rest) := hl.of_subset (List.subset_cons_self _ _)
      have ih := leads_argmax hsub hrest
      rw [hbetter]
      rw [hlt] at hsmaller
      have hsecond := ih.place hsub List.mem_cons_self
      exact ⟨List.mem_cons_of_mem _ ih.mem, ⟨by omega, fun _ => by omega⟩, hsecond,
        fun d hd => ih.place hsub (List.mem_cons_of_mem _ hd)⟩
    · -- the scan stays with the first candidate, and the second one, which is behind it, is not larger
      have hbetter : better first c = first := if_neg hsmaller
      have hskip : first :: rest ⊆ first :: c :: rest := List.cons_subset_cons _ (List.subset_cons_self _ _)
      have hsub : Comparable (first :: rest) := hl.of_subset hskip
      have ih := leads_argmax hsub (List.pairwise_cons.2
        ⟨fun d hd => hfirst d (List.mem_cons_of_mem _ hd), (List.pairwise_cons.1 hrest).2⟩)
      rw [hbetter]
      rw [hlt] at hsmaller
      have hindex := hfirst c List.mem_cons_self
      have hfront := ih.place hsub List.mem_cons_self
      exact ⟨hskip ih.mem, hfront, ⟨by omega, fun _ => by omega⟩,
        fun d hd => ih.place hsub (List.mem_cons_of_mem _ hd)⟩

/-! ## The order -/

theorem heads_of_order {order : List Candidate} (h : Order order l) (hd : order.head? = some d) : Heads d l := by
  cases order with
  | nil => cases hd
  | cons c rest =>
    cases hd
    refine ⟨h.perm.mem_iff.1 List.mem_cons_self, fun e he hne => ?_⟩
    rcases List.mem_cons.1 (h.perm.mem_iff.2 he) with rfl | hrest
    · exact absurd rfl hne
    · exact (List.pairwise_cons.1 h.pairwise).1 e hrest

/-- The first of the largest and the first in order have equal logits, and if they differ, the first in order has the
higher index. -/
theorem place_eq_of_leads (hc : Leads c l) (hd : Heads d l) (hl : Comparable l) :
    d.2.place = c.2.place ∧ (d ≠ c → c.2.rank < d.2.rank ∧ c.1 ≤ d.1) := by
  by_cases hsame : d = c
  · exact ⟨by rw [hsame], fun hne => absurd hsame hne⟩
  have hle := (hc.place hl hd.mem).1
  have hbefore := hd.before c hc.mem (Ne.symm hsame)
  have hplace : d.2.place = c.2.place := by
    refine Int.le_antisymm hle (Int.not_lt.1 fun hlt => ?_)
    have hrank := Single.rank_lt_of_place_lt hlt
    unfold Before at hbefore
    omega
  have hnot : ¬d.1 < c.1 := fun hlt => absurd ((hc.place hl hd.mem).2 hlt) (by omega)
  refine ⟨hplace, fun _ => ?_⟩
  unfold Before at hbefore
  omega

/-- **The two agree unless the scan stops at a `-0` and there is a `+0`.** -/
theorem heads_eq_leads_iff (hc : Leads c l) (hd : Heads d l) (hl : Comparable l) :
    d = c ↔ ¬(c.2 = .negZero ∧ ∃ e ∈ l, e.2 = .zero) := by
  obtain ⟨hplace, hdiffer⟩ := place_eq_of_leads hc hd hl
  constructor
  · rintro rfl ⟨hneg, e, he, hzero⟩
    have hne : e ≠ d := by
      rintro rfl
      rw [hneg] at hzero
      exact absurd hzero (by decide)
    have hbefore := hd.before e he hne
    have hneg' : d.2.rank = -1 := by rw [hneg]; decide
    have hzero' : e.2.rank = 0 := by rw [hzero]; decide
    unfold Before at hbefore
    omega
  · intro hzeros
    by_contra hne
    obtain ⟨hneg, hzero⟩ := Single.zeros_of_place_eq hplace.symm (hdiffer hne).1
    exact hzeros ⟨hneg, d, hd.mem, hzero⟩

/-! ## The draws -/

theorem pairwise_candidates (a : Arithmetic) (p : Sampling) (logits : Vec) (recent : List Token) :
    (a.candidates p logits recent).Pairwise fun c d => c.1 < d.1 := by
  have hrange : (List.range logits.length).Pairwise (· < ·) := List.pairwise_lt_range
  rwa [← map_fst_candidates a p logits recent, List.pairwise_map] at hrange

theorem nodup_fst_candidates (a : Arithmetic) (p : Sampling) (logits : Vec) (recent : List Token) :
    ((a.candidates p logits recent).map Prod.fst).Nodup := by
  rw [map_fst_candidates]
  exact List.nodup_range

/-- A penalty that is finite and above zero makes no NaN. -/
theorem comparable_candidates (hlogits : ∀ x ∈ logits, x.isNaN = false) (hfinite : p.penalty.isFinite = true)
    (hpos : Single.zero.lt p.penalty = true) (recent : List Token) :
    Comparable (Arithmetic.machine.candidates p logits recent) := by
  have hzip : Comparable ((List.range logits.length).zip logits) := fun c hc => hlogits _ (List.of_mem_zip hc).2
  unfold Arithmetic.candidates Arithmetic.applyPenalty
  split
  · exact hzip
  · intro c hc
    obtain ⟨⟨i, x⟩, hmem, rfl⟩ := List.mem_map.1 hc
    have hx : x.isNaN = false := hzip _ hmem
    dsimp only
    split
    · unfold Arithmetic.penalise
      split
      · exact Single.isNaN_mul hx hfinite hpos
      · exact Single.isNaN_div hx hfinite hpos
    · exact hx

/-- **At temperature zero or below the first of the largest is drawn.** -/
theorem exists_draw_cold (h : logits ≠ []) (hcold : p.temperature.le .zero = true)
    (hl : Comparable (Arithmetic.machine.candidates p logits recent)) (g : Generator) :
    ∃ c, Leads c (Arithmetic.machine.candidates p logits recent) ∧
      p.draw logits recent g = (.ok (.ofIndex c.1), g) := by
  have hsorted := pairwise_candidates .machine p logits recent
  have hlength := length_candidates .machine p logits recent
  unfold draw
  rw [← candidates_machine]
  cases hcandidates : Arithmetic.machine.candidates p logits recent with
  | nil =>
    rw [hcandidates] at hlength
    exact absurd (List.length_eq_zero_iff.1 hlength.symm) h
  | cons first rest =>
    rw [hcandidates] at hl hsorted
    exact ⟨_, leads_argmax hl hsorted, if_pos hcold⟩

theorem scaled_of_one (hone : p.temperature = .one)
    (hl : Comparable (Arithmetic.machine.candidates p logits recent)) :
    Arithmetic.machine.scaled p logits recent = Arithmetic.machine.candidates p logits recent := by
  rw [Arithmetic.scaled, hone]
  refine (List.map_congr_left fun c hc => ?_).trans (List.map_id _)
  exact Prod.ext rfl (Single.div_one (hl c hc))

/-- **At temperature one the best one is the first in order.** -/
theorem exists_draw_best (h : logits ≠ []) (hone : p.temperature = .one) (hk : p.topK = 1)
    (hl : Comparable (Arithmetic.machine.candidates p logits recent)) (g : Generator) :
    ∃ d, Heads d (Arithmetic.machine.candidates p logits recent) ∧
      ((Arithmetic.machine.candidates p logits recent).mergeSort precedes).head? = some d ∧
      p.draw logits recent g = (.ok (.ofIndex d.1), g.next.2) := by
  have hwarm : p.temperature.le .zero = false := by
    rw [hone]
    decide
  have horder : Order ((Arithmetic.machine.scaled p logits recent).mergeSort precedes)
      (Arithmetic.machine.scaled p logits recent) := order_scaled
  obtain ⟨d, hd, hdraw⟩ : ∃ d ∈ Arithmetic.machine.ranked p logits recent,
      Arithmetic.machine.draw? p logits recent g = some (.ok (.ofIndex d.1), g.next.2) := draw?_warm h hwarm
  rw [draw?_machine] at hdraw
  rw [Arithmetic.ranked, hk, if_neg Nat.one_ne_zero] at hd
  rw [scaled_of_one hone hl] at horder hd
  have hhead : ((Arithmetic.machine.candidates p logits recent).mergeSort precedes).head? = some d := by
    cases hsorted : (Arithmetic.machine.candidates p logits recent).mergeSort precedes with
    | nil =>
      rw [hsorted] at hd
      cases hd
    | cons first rest =>
      rw [hsorted] at hd
      rw [List.mem_singleton.1 hd]
      rfl
  exact ⟨d, heads_of_order horder hhead, hhead, Option.some.inj hdraw⟩

/-- **The greedy token and the best one.**  Greedy is the first of the largest logits, the best one of temperature one
the first in order.  Their logits are equal, and the greedy token is not the one behind; they are the same token
unless the greedy one has the logit `-0` and another one `+0`.  So it is for all logits that are penalised without a
NaN, as they are where none is NaN and the penalty is finite and above zero. -/
theorem draw_greedy_and_best (p q : Sampling) (logits : Vec) (recent : List Token) (g g' : Generator)
    (hne : logits ≠ []) (hcold : p.temperature.le .zero = true) (hone : q.temperature = .one) (hk : q.topK = 1)
    (hpenalty : q.penalty = p.penalty) :
    ((∀ x ∈ logits, x.isNaN = false) → p.penalty.isFinite = true → Single.zero.lt p.penalty = true →
      Comparable (Arithmetic.machine.candidates p logits recent)) ∧
    (Comparable (Arithmetic.machine.candidates p logits recent) →
      ∃ c d, Leads c (Arithmetic.machine.candidates p logits recent) ∧
        ((Arithmetic.machine.candidates p logits recent).mergeSort precedes).head? = some d ∧
        p.draw logits recent g = (.ok (.ofIndex c.1), g) ∧
        q.draw logits recent g' = (.ok (.ofIndex d.1), g'.next.2) ∧
        d.2.eq c.2 = true ∧ c.1 ≤ d.1 ∧
        (d.1 = c.1 ↔ ¬(c.2 = .negZero ∧ ∃ e ∈ Arithmetic.machine.candidates p logits recent, e.2 = .zero))) := by
  refine ⟨fun hlogits hfinite hpos => comparable_candidates hlogits hfinite hpos recent, fun hl => ?_⟩
  have hsame : Arithmetic.machine.candidates q logits recent = Arithmetic.machine.candidates p logits recent := by
    unfold Arithmetic.candidates Arithmetic.applyPenalty
    rw [hpenalty]
  obtain ⟨c, hc, hgreedy⟩ := exists_draw_cold hne hcold hl g
  obtain ⟨d, hd, hhead, hbest⟩ := exists_draw_best hne hone hk (by rwa [hsame]) g'
  rw [hsame] at hd hhead
  obtain ⟨hplace, hdiffer⟩ := place_eq_of_leads hc hd hl
  have hindex : d.1 = c.1 ↔ d = c :=
    ⟨List.inj_on_of_nodup_map (nodup_fst_candidates .machine p logits recent) hd.mem hc.mem, congrArg Prod.fst⟩
  refine ⟨c, d, hc, hhead, hgreedy, hbest, (Single.eq_iff_place (hl d hd.mem) (hl c hc.mem)).2 hplace, ?_,
    hindex.trans (heads_eq_leads_iff hc hd hl)⟩
  by_cases hdc : d = c
  · rw [hdc]
  · exact (hdiffer hdc).2

/-- Of two infinities the first one, greedily and as the best one. -/
theorem draw_greedy_and_best_infinite :
    let p := { default with temperature := .zero }
    let q := { default with temperature := .one, topK := 1 }
    let logits : Vec := [.one, .infinity, .infinity]
    p.draw logits [] ⟨7⟩ = (.ok (.ofIndex 1), ⟨7⟩) ∧
      q.draw logits [] ⟨7⟩ = (.ok (.ofIndex 1), (Generator.mk 7).next.2) := by
  intro p q logits
  obtain ⟨hclean, hdraws⟩ := draw_greedy_and_best p q logits [] ⟨7⟩ ⟨7⟩ (List.cons_ne_nil _ _) (by decide) rfl rfl rfl
  obtain ⟨c, d, hc, -, hgreedy, hbest, -, -, hsame⟩ := hdraws (hclean (by decide) (by decide) (by decide))
  have hcandidates : Arithmetic.machine.candidates p logits [] = [(0, .one), (1, .infinity), (2, .infinity)] := rfl
  rw [hcandidates] at hc hsame
  have hfirst : c.1 = 1 := by
    obtain ⟨hmem, hlargest, hlower⟩ := hc
    rcases List.mem_cons.1 hmem with rfl | hmem
    · exact absurd (hlargest (1, .infinity) (by decide)) (by decide)
    · rcases List.mem_cons.1 hmem with rfl | hmem
      · rfl
      · obtain rfl := List.mem_singleton.1 hmem
        exact absurd (hlower (1, .infinity) (by decide) (by decide)) (by decide)
  have hsecond : d.1 = 1 := by
    refine (hsame.2 fun hzero => ?_).trans hfirst
    obtain ⟨e, he, heq⟩ := hzero.2
    revert e
    decide
  rw [hfirst] at hgreedy
  rw [hsecond] at hbest
  exact ⟨hgreedy, hbest⟩

/-- **Of the two zeros the greedy token is the first one, and the best one is `+0`**, though neither logit is a NaN and
they are equal. -/
theorem draw_greedy_ne_best :
    let p := { default with temperature := .zero }
    let q := { default with temperature := .one, topK := 1 }
    let logits : Vec := [.negZero, .zero]
    (∀ x ∈ logits, x.isNaN = false) ∧ Single.negZero.eq .zero = true ∧
      (p.draw logits [] ⟨7⟩).1 = .ok (.ofIndex 0) ∧ (q.draw logits [] ⟨7⟩).1 = .ok (.ofIndex 1) := by
  intro p q logits
  refine ⟨by decide, by decide, rfl, ?_⟩
  have hl : Comparable (Arithmetic.machine.candidates q logits []) :=
    comparable_candidates (by decide) (by decide) (by decide) []
  obtain ⟨d, hd, -, hbest⟩ := exists_draw_best (p := q) (List.cons_ne_nil _ _) rfl rfl hl ⟨7⟩
  have hcandidates : Arithmetic.machine.candidates q logits [] = [(0, .negZero), (1, .zero)] := rfl
  rw [hcandidates] at hd
  have hsecond : d.1 = 1 := by
    rcases List.mem_cons.1 hd.mem with rfl | hmem
    · have hbefore := hd.before (1, .zero) (by decide) (by decide)
      unfold Before at hbefore
      exact absurd hbefore (by decide)
    · rw [List.mem_singleton.1 hmem]
  rw [hbest, hsecond]

end Sampling
end CausalLM
