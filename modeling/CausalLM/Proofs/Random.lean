import CausalLM.Random
import Mathlib.Algebra.Ring.GeomSum
import Mathlib.NumberTheory.Multiplicity
import Mathlib.RingTheory.Int.Basic
/-!
# Proofs.Random — the period of the generator

In `n` steps a state moves by a geometric sum times an odd number (`modEq_after`), and that sum has as many factors of
two as `n` (`two_pow_dvd_geom_sum_iff`).  So the states go round in one cycle through all words, and as the mixing step
loses nothing (`mix_injective`), so do the words that are drawn (`fullPeriod_next`).
-/
namespace CausalLM.Generator

/-- The generator after so many draws. -/
def after (g : Generator) : Nat → Generator
  | 0 => g
  | n + 1 => (g.after n).next.2

/-- **What can be drawn**: a word, or a number made of one. -/
inductive Draw where
  | word
  | unit
  | between (low high : Double)
  deriving DecidableEq, Repr

/-- One draw: a word or a number, and the generator after it. -/
def draw (g : Generator) : Draw → (UInt64 ⊕ Double) × Generator
  | .word => let (w, g) := g.next; (.inl w, g)
  | .unit => let (x, g) := g.nextUnit; (.inr x, g)
  | .between low high => let (x, g) := g.nextBetween low high; (.inr x, g)

/-- What is drawn, one after the other. -/
def drawAll (g : Generator) : List Draw → List (UInt64 ⊕ Double)
  | [] => []
  | d :: ds => (g.draw d).1 :: (g.draw d).2.drawAll ds

variable {g : Generator} {m n : Nat}

/-! ## States -/

theorem after_add (g : Generator) (m : Nat) : ∀ n, g.after (m + n) = (g.after m).after n
  | 0 => rfl
  | n + 1 => congrArg (fun g => g.next.2) (after_add g m n)

/-- The multiplier and the increment of `advance`. -/
def multiplier : Nat := 6364136223846793005

def increment : Nat := 1442695040888963407

theorem toNat_advance (s : UInt64) : (advance s).toNat = (s.toNat * multiplier + increment) % 2 ^ 64 := by
  rw [advance, UInt64.toNat_add, UInt64.toNat_mul, Nat.mod_add_mod]
  rfl

/-- How far one step moves the state, before it is cut to a word. -/
def stride (g : Generator) : ℤ := (multiplier - 1) * g.state.toNat + increment

/-- **So many steps move the state by a geometric sum of strides.** -/
theorem modEq_after (g : Generator) : ∀ n, ((g.after n).state.toNat : ℤ) ≡
    g.state.toNat + (∑ i ∈ Finset.range n, (multiplier : ℤ) ^ i) * g.stride [ZMOD 2 ^ 64]
  | 0 => by simp [after]
  | n + 1 => by
    have hstep : ((g.after (n + 1)).state.toNat : ℤ) ≡ (g.after n).state.toNat * multiplier + increment
        [ZMOD 2 ^ 64] := by
      rw [after, next, toNat_advance]
      push_cast
      exact Int.mod_modEq _ _
    have hsum : (g.state.toNat + (∑ i ∈ Finset.range n, (multiplier : ℤ) ^ i) * g.stride) * multiplier + increment =
        g.state.toNat + (∑ i ∈ Finset.range (n + 1), (multiplier : ℤ) ^ i) * g.stride := by
      rw [geom_sum_succ, stride]
      ring
    rw [← hsum]
    exact hstep.trans (((modEq_after g n).mul_right _).add_right _)

theorem odd_stride (g : Generator) : Odd g.stride := by
  have heven : Even ((multiplier : ℤ) - 1) := ⟨3182068111923396502, rfl⟩
  have hodd : Odd (increment : ℤ) := ⟨721347520444481703, rfl⟩
  exact (heven.mul_right _).add_odd hodd

/-- **A geometric sum of the multiplier has as many factors of two as its length.** -/
theorem two_pow_dvd_geom_sum_iff (k n : Nat) :
    (2 : ℤ) ^ k ∣ ∑ i ∈ Finset.range n, (multiplier : ℤ) ^ i ↔ (2 : ℤ) ^ k ∣ n := by
  -- the multiplier less one is a multiple of four, so its powers less one gain the factors of the exponent
  have hfour : (4 : ℤ) ∣ multiplier - 1 := ⟨1591034055961698251, rfl⟩
  have hlift := Int.two_pow_sub_pow' n hfour (by decide)
  rw [one_pow, ← geom_sum_mul, emultiplicity_mul Int.prime_two, add_comm] at hlift
  have hfinite : FiniteMultiplicity (2 : ℤ) (multiplier - 1) :=
    Int.finiteMultiplicity_iff.2 ⟨by decide, by decide⟩
  have hsame := ENat.add_right_injective_of_ne_top (finiteMultiplicity_iff_emultiplicity_ne_top.1 hfinite) hlift
  rw [pow_dvd_iff_le_emultiplicity, pow_dvd_iff_le_emultiplicity, hsame]

/-- **The states come round after `2 ^ 64` steps, and not before.** -/
theorem after_eq_self_iff : g.after n = g ↔ 2 ^ 64 ∣ n := by
  have hstate : g.after n = g ↔ ((g.after n).state.toNat : ℤ) ≡ g.state.toNat [ZMOD 2 ^ 64] := by
    constructor
    · intro h
      rw [h]
    · intro h
      have hnat : (g.after n).state.toNat ≡ g.state.toNat [MOD 2 ^ 64] := Int.natCast_modEq_iff.1 (by exact_mod_cast h)
      have heq := hnat.eq_of_lt_of_lt (g.after n).state.toNat_lt g.state.toNat_lt
      exact congrArg Generator.mk (UInt64.toNat_inj.1 heq)
  have hcoprime : IsCoprime ((2 : ℤ) ^ 64) g.stride := (Int.isCoprime_two_left.2 g.odd_stride).pow_left
  calc g.after n = g
      ↔ (g.state.toNat + (∑ i ∈ Finset.range n, (multiplier : ℤ) ^ i) * g.stride) ≡ g.state.toNat [ZMOD 2 ^ 64] := by
        rw [hstate]
        exact ⟨(modEq_after g n).symm.trans, (modEq_after g n).trans⟩
    _ ↔ (2 : ℤ) ^ 64 ∣ (∑ i ∈ Finset.range n, (multiplier : ℤ) ^ i) * g.stride := by
        rw [Int.modEq_comm, Int.modEq_iff_dvd, add_sub_cancel_left]
    _ ↔ (2 : ℤ) ^ 64 ∣ ∑ i ∈ Finset.range n, (multiplier : ℤ) ^ i :=
        ⟨hcoprime.dvd_of_dvd_mul_right, fun h => h.mul_right _⟩
    _ ↔ (2 : ℤ) ^ 64 ∣ n := two_pow_dvd_geom_sum_iff 64 n
    _ ↔ 2 ^ 64 ∣ n := by exact_mod_cast Iff.rfl

/-- Within one period no state comes twice. -/
theorem after_injOn (hm : m < 2 ^ 64) (hn : n < 2 ^ 64) (h : g.after m = g.after n) : m = n := by
  wlog hle : m ≤ n generalizing m n
  · exact (this hn hm h.symm (Nat.le_of_not_le hle)).symm
  obtain ⟨k, rfl⟩ := Nat.le.dest hle
  rw [after_add] at h
  have hk := Nat.eq_zero_of_dvd_of_lt (after_eq_self_iff.1 h.symm) (by omega)
  omega

/-- **Each state comes once in a period.** -/
theorem existsUnique_after (g t : Generator) : ∃! n, n < 2 ^ 64 ∧ g.after n = t := by
  -- as many states as steps, and no two steps have one state
  have hinjective : Function.Injective fun n : Fin (2 ^ 64) => (g.after n).state.toFin := fun m n h =>
    Fin.ext (after_injOn m.2 n.2 (congrArg Generator.mk (UInt64.toFin_inj.1 h)))
  obtain ⟨n, hn⟩ := Finite.injective_iff_surjective.1 hinjective t.state.toFin
  have hstate : g.after n = t := congrArg Generator.mk (UInt64.toFin_inj.1 hn)
  exact ⟨n, ⟨n.2, hstate⟩, fun k hk => after_injOn hk.1 n.2 (hk.2.trans hstate.symm)⟩

/-! ## Words -/

/-- **A word with its upper bits laid over the lower ones** can be told from any other such. -/
theorem xor_shiftRight_injective {k : UInt64} (hk : 0 < k.toNat % 64) :
    Function.Injective fun z : UInt64 => z ^^^ (z >>> k) := by
  intro x y h
  have hzero : (x ^^^ y) ^^^ ((x ^^^ y) >>> k) = 0 := by
    calc (x ^^^ y) ^^^ ((x ^^^ y) >>> k)
        = (x ^^^ (x >>> k)) ^^^ (y ^^^ (y >>> k)) := by rw [UInt64.shiftRight_xor]; ac_rfl
      _ = 0 := UInt64.xor_eq_zero_iff.2 h
  -- where the two differ is its own shift, so they differ nowhere
  have hshift := congrArg UInt64.toNat (UInt64.xor_eq_zero_iff.1 hzero)
  rw [UInt64.toNat_shiftRight, Nat.shiftRight_eq_div_pow] at hshift
  have hnone : (x ^^^ y).toNat = 0 := by
    by_contra hne
    exact Nat.ne_of_gt (Nat.div_lt_self (Nat.pos_of_ne_zero hne) (Nat.one_lt_two_pow (Nat.ne_of_gt hk))) hshift
  exact UInt64.xor_eq_zero_iff.1 (UInt64.toNat_inj.1 hnone)

/-- A product with a factor that has an inverse can be told from any other. -/
theorem mul_right_injective {c : UInt64} (inverse : UInt64) (h : c * inverse = 1) : Function.Injective fun z : UInt64 => z * c :=
  Function.LeftInverse.injective (g := fun z => z * inverse) fun z => by
    change z * c * inverse = z
    rw [UInt64.mul_assoc, h, UInt64.mul_one]

theorem mix_injective : Function.Injective mix := by
  have hfirst : Function.Injective fun z : UInt64 => (z ^^^ (z >>> 30)) * 0xbf58476d1ce4e5b9 :=
    (mul_right_injective 0x96de1b173f119089 (by decide)).comp (xor_shiftRight_injective (by decide))
  have hsecond : Function.Injective fun z : UInt64 => (z ^^^ (z >>> 27)) * 0x94d049bb133111eb :=
    (mul_right_injective 0x319642b2d24d8ec3 (by decide)).comp (xor_shiftRight_injective (by decide))
  exact ((xor_shiftRight_injective (by decide)).comp hsecond).comp hfirst

theorem mix_bijective : Function.Bijective mix := by
  have hfinite : Finite UInt64 := Finite.of_injective UInt64.toFin fun _ _ => UInt64.toFin_inj.1
  exact Finite.injective_iff_bijective.1 mix_injective

/-- What is drawn next tells the state. -/
theorem next_injective : Function.Injective fun g : Generator => g.next.1 := fun g t h => by
  have hadvance : g.after 1 = t.after 1 := congrArg Generator.mk (mix_injective h)
  have hround := congrArg (fun u : Generator => u.after (2 ^ 64 - 1)) hadvance
  simp only [← after_add] at hround
  rwa [after_eq_self_iff.2 (by decide), after_eq_self_iff.2 (by decide)] at hround

/-! ## Replay -/

theorem after_succ (g : Generator) (n : Nat) : g.after (n + 1) = g.next.2.after n := by
  rw [Nat.add_comm, after_add]
  rfl

/-- Whatever is drawn takes one step. -/
theorem draw_snd (g : Generator) (d : Draw) : (g.draw d).2 = g.next.2 := by cases d <;> rfl

theorem length_drawAll : ∀ (ds : List Draw) (g : Generator), (g.drawAll ds).length = ds.length
  | [], _ => rfl
  | _ :: ds, _ => congrArg (· + 1) (length_drawAll ds _)

theorem drawAll_append : ∀ (drawn more : List Draw) (g : Generator),
    g.drawAll (drawn ++ more) = g.drawAll drawn ++ (g.after drawn.length).drawAll more
  | [], _, _ => rfl
  | d :: drawn, more, g => by
    rw [List.cons_append, drawAll, drawAll, drawAll_append drawn more, draw_snd, List.length_cons, after_succ,
      List.cons_append]

/-- **The generator has full period and loses no state.**  Its states come round after `2 ^ 64` steps and not before;
each word is drawn once on the way, and tells the state it was drawn from; and a generator that is given a saved state
draws what followed it, words or numbers. -/
theorem fullPeriod_next (g : Generator) :
    (∀ n, g.after n = g ↔ 2 ^ 64 ∣ n) ∧
      Function.Bijective mix ∧
      (∀ w, ∃! n, n < 2 ^ 64 ∧ (g.after n).next.1 = w) ∧
      Function.Injective (fun t : Generator => t.next.1) ∧
      ∀ (drawn more : List Draw) (other : Generator),
        { other with state := (g.after drawn.length).state }.drawAll more =
          (g.drawAll (drawn ++ more)).drop drawn.length := by
  refine ⟨fun n => after_eq_self_iff, mix_bijective, fun w => ?_, next_injective, fun drawn more other => ?_⟩
  · -- the state that the word is made of comes once, one step further
    obtain ⟨s, rfl⟩ := mix_bijective.2 w
    obtain ⟨n, ⟨hlt, hstate⟩, hunique⟩ := existsUnique_after g.next.2 ⟨s⟩
    refine ⟨n, ⟨hlt, ?_⟩, fun k hk => hunique k ⟨hk.1, ?_⟩⟩
    · rw [← after_succ] at hstate
      exact congrArg (fun t : Generator => mix t.state) hstate
    · rw [← after_succ]
      exact congrArg Generator.mk (mix_injective hk.2)
  · rw [drawAll_append, ← length_drawAll drawn g, List.drop_left, length_drawAll]

end CausalLM.Generator
