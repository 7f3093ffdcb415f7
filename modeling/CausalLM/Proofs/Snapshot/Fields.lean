import CausalLM.Snapshot
import CausalLM.Proofs.Bytes
import CausalLM.Proofs.Outcome
/-!
# Proofs.Snapshot.Fields — a reader accepts what its writer wrote

For every field of a snapshot the reader succeeds exactly on the written field followed by what is left
(`readTokens_eq_ok_iff` and so on), and its only failure, while memory lasts, is that the snapshot is corrupt
(`Corrupts`).
-/
namespace CausalLM

/-! ## Tokens and numbers in bytes -/

theorem Token.ofInt_toInt_ofInt (t : Token) : Token.ofInt (Bytes.toInt (Bytes.ofInt 4 t.toInt)) = t := by
  obtain ⟨id⟩ := t
  have hbmod : Int.bmod id.toInt (256 ^ 4) = id.toInt := id.toInt_bmod
  rw [Bytes.toInt_ofInt, Token.toInt, hbmod, Token.ofInt, Int32.ofInt_toInt]

theorem Token.ofInt_toInt {b : Bytes} (h : b.length = 4) : Bytes.ofInt 4 (Token.ofInt b.toInt).toInt = b := by
  have hto : (Token.ofInt b.toInt).toInt = b.toInt := by
    rw [Token.ofInt, Token.toInt, Int32.toInt_ofInt, Bytes.toInt, h]
    exact Int.bmod_bmod
  rw [hto, ← h, Bytes.ofInt_toInt]

namespace Snapshot

/-- **The operation fails only because the snapshot is corrupt.** -/
def Corrupts {α : Type} (x : Except Error α) : Prop := ∀ e, x = .error e → ∃ why, e = .corruptState why

section
variable {α β : Type} {x : Except Error α} {f : α → Except Error β}

theorem Corrupts.ok (a : α) : Corrupts (.ok a) := fun _ h => by cases h

theorem Corrupts.corrupt (why : String) : Corrupts (α := α) (.error (.corruptState why)) := fun _ h => by
  cases h
  exact ⟨why, rfl⟩

theorem Corrupts.bind (hx : Corrupts x) (hf : ∀ a, x = .ok a → Corrupts (f a)) : Corrupts (x >>= f) := by
  intro e h
  rcases bind_eq_error_iff.1 h with h | ⟨a, ha, h⟩
  · exact hx e h
  · exact hf a ha e h

theorem Corrupts.guard {p : Prop} [Decidable p] {why : String} (h : ¬p → Corrupts x) :
    Corrupts (if p then .error (.corruptState why) else x) := by
  split
  · exact .corrupt why
  · exact h ‹_›

end

variable {s r : Bytes} {n : Nat}

/-! ## Bytes and words -/

theorem readBytes_eq_ok_iff {b : Bytes} : readBytes n s = .ok (b, r) ↔ s = b ++ r ∧ b.length = n := by
  rw [← Bytes.split?_eq_some_iff, readBytes]
  split
  · rename_i p hp
    rw [hp, Except.ok.injEq, Option.some.injEq]
  · rename_i hn
    rw [hn]
    exact iff_of_false (fun h => by cases h) (fun h => by cases h)

theorem corrupts_readBytes (n : Nat) (s : Bytes) : Corrupts (readBytes n s) := by
  rw [readBytes]
  split
  · exact .ok _
  · exact .corrupt _

theorem readWord_eq_ok_iff {width : Nat} : readWord width s = .ok (n, r) ↔
    s = Bytes.ofNat width n ++ r ∧ n < 256 ^ width := by
  simp only [readWord, bind_eq_ok_iff]
  constructor
  · rintro ⟨⟨b, s'⟩, hread, h⟩
    cases h
    obtain ⟨rfl, rfl⟩ := readBytes_eq_ok_iff.1 hread
    exact ⟨by rw [Bytes.ofNat_toNat], Bytes.toNat_lt b⟩
  · rintro ⟨rfl, hlt⟩
    refine ⟨_, readBytes_eq_ok_iff.2 ⟨rfl, Bytes.length_ofNat width n⟩, ?_⟩
    rw [Bytes.toNat_ofNat_of_lt hlt]
    rfl

theorem corrupts_readWord (width : Nat) (s : Bytes) : Corrupts (readWord width s) :=
  (corrupts_readBytes width s).bind fun _ _ => .ok _

/-! ## Tokens -/

/-- The bytes of tokens. -/
def writeTokens (ts : List Token) : Bytes := ts.flatMap fun t => Bytes.ofInt 4 t.toInt

@[simp] theorem length_writeTokens (ts : List Token) : (writeTokens ts).length = ts.length * 4 := by
  rw [writeTokens, List.length_flatMap]
  simp only [Bytes.length_ofInt]
  rw [List.map_const', List.sum_replicate_nat]

theorem readTokens_eq_ok_iff : ∀ {n : Nat} {s r : Bytes} {ts : List Token},
    readTokens n s = .ok (ts, r) ↔ s = writeTokens ts ++ r ∧ ts.length = n
  | 0, s, r, ts => by
    rw [readTokens, Except.ok.injEq, Prod.mk.injEq]
    constructor
    · rintro ⟨rfl, rfl⟩
      exact ⟨rfl, rfl⟩
    · rintro ⟨rfl, hlen⟩
      rw [List.length_eq_zero_iff.1 hlen]
      exact ⟨rfl, rfl⟩
  | n + 1, s, r, ts => by
    simp only [readTokens, bind_eq_ok_iff]
    constructor
    · rintro ⟨⟨b, s₁⟩, hread, ⟨ts', s₂⟩, htokens, h⟩
      cases h
      obtain ⟨rfl, hb⟩ := readBytes_eq_ok_iff.1 hread
      obtain ⟨rfl, rfl⟩ := readTokens_eq_ok_iff.1 htokens
      refine ⟨?_, rfl⟩
      change _ = (Bytes.ofInt 4 (Token.ofInt b.toInt).toInt ++ writeTokens ts') ++ s₂
      rw [Token.ofInt_toInt hb, List.append_assoc]
    · rintro ⟨rfl, hlen⟩
      obtain ⟨t, ts', rfl⟩ := List.exists_cons_of_length_eq_add_one hlen
      refine ⟨(Bytes.ofInt 4 t.toInt, writeTokens ts' ++ r), readBytes_eq_ok_iff.2 ⟨?_, Bytes.length_ofInt 4 _⟩,
        (ts', r), readTokens_eq_ok_iff.2 ⟨rfl, Nat.succ.inj hlen⟩, ?_⟩
      · rw [writeTokens, List.flatMap_cons, List.append_assoc]
        rfl
      · rw [Token.ofInt_toInt_ofInt]
        rfl

theorem corrupts_readTokens : ∀ (n : Nat) (s : Bytes), Corrupts (readTokens n s)
  | 0, _ => .ok _
  | n + 1, s => (corrupts_readBytes 4 s).bind fun _ _ => (corrupts_readTokens n _).bind fun _ _ => .ok _

/-! ## Numbers -/

@[simp] theorem length_writeSingles (v : Vec) : (writeSingles v).length = v.length * 4 := by
  rw [writeSingles, List.length_flatMap]
  simp only [Bytes.length_ofNat]
  rw [List.map_const', List.sum_replicate_nat]

theorem singlesOf_writeSingles : ∀ v : Vec, singlesOf v.length (writeSingles v) = v
  | [] => rfl
  | x :: v => by
    have hlen : (Bytes.ofNat 4 x.bits.toNat).length = 4 := Bytes.length_ofNat 4 _
    have hx : x.bits.toNat < 256 ^ 4 := x.bits.toNat_lt
    have hw : writeSingles (x :: v) = Bytes.ofNat 4 x.bits.toNat ++ writeSingles v := rfl
    rw [List.length_cons, singlesOf, hw, List.take_left' hlen, List.drop_left' hlen, singlesOf_writeSingles v,
      Bytes.toNat_ofNat_of_lt hx, UInt32.ofNat_toNat]

theorem writeSingles_singlesOf : ∀ {n : Nat} {b : Bytes}, b.length = n * 4 →
    (singlesOf n b).length = n ∧ writeSingles (singlesOf n b) = b
  | 0, b, h => by
    rw [Nat.zero_mul, List.length_eq_zero_iff] at h
    rw [h]
    exact ⟨rfl, rfl⟩
  | n + 1, b, h => by
    have htake : (b.take 4).length = 4 := by rw [List.length_take]; omega
    obtain ⟨ihlen, ihwrite⟩ := writeSingles_singlesOf (n := n) (b := b.drop 4) (by rw [List.length_drop]; omega)
    have hbits : (UInt32.ofNat (Bytes.toNat (b.take 4))).toNat = Bytes.toNat (b.take 4) := by
      have := Bytes.toNat_lt (b.take 4)
      rw [htake] at this
      exact UInt32.toNat_ofNat_of_lt' this
    refine ⟨congrArg (· + 1) ihlen, ?_⟩
    have hw : writeSingles (singlesOf (n + 1) b) =
        Bytes.ofNat 4 (UInt32.ofNat (Bytes.toNat (b.take 4))).toNat ++ writeSingles (singlesOf n (b.drop 4)) := rfl
    have hword : Bytes.ofNat 4 (Bytes.toNat (b.take 4)) = b.take 4 := by
      have := Bytes.ofNat_toNat (b.take 4)
      rwa [htake] at this
    rw [hw, hbits, ihwrite, hword, List.take_append_drop]

theorem readSingles_eq_ok_iff {v : Vec} : readSingles n s = .ok (v, r) ↔
    s = writeSingles v ++ r ∧ v.length = n ∧ Memory.fits n = true := by
  simp only [readSingles, bind_eq_ok_iff]
  constructor
  · rintro ⟨z, hzeros, ⟨b, s'⟩, hread, h⟩
    cases h
    obtain ⟨rfl, hb⟩ := readBytes_eq_ok_iff.1 hread
    obtain ⟨hlen, hwrite⟩ := writeSingles_singlesOf hb
    refine ⟨by rw [hwrite], hlen, ?_⟩
    rw [Memory.zeros] at hzeros
    split at hzeros
    · assumption
    · cases hzeros
  · rintro ⟨rfl, rfl, hfits⟩
    refine ⟨List.replicate v.length .zero, by rw [Memory.zeros, if_pos hfits], (writeSingles v, r),
      readBytes_eq_ok_iff.2 ⟨rfl, length_writeSingles v⟩, ?_⟩
    rw [singlesOf_writeSingles]
    rfl

theorem corrupts_readSingles (h : Memory.fits n = true) (s : Bytes) : Corrupts (readSingles n s) := by
  rw [readSingles, Memory.zeros, if_pos h]
  exact (corrupts_readBytes (n * 4) s).bind fun _ _ => .ok _

/-! ## Rows -/

/-- The bytes of the key and value rows of some layers. -/
def writeRows (rows : List (Vec × Vec)) : Bytes := rows.flatMap fun p => writeSingles p.1 ++ writeSingles p.2

theorem length_writeRows : ∀ {rows : List (Vec × Vec)}, (∀ p ∈ rows, p.1.length = n ∧ p.2.length = n) →
    (writeRows rows).length = rows.length * 2 * n * 4
  | [], _ => by simp [writeRows]
  | p :: rows, h => by
    obtain ⟨⟨hk, hv⟩, hrows⟩ := List.forall_mem_cons.1 h
    have ih := length_writeRows hrows
    rw [writeRows, List.flatMap_cons, List.length_append, List.length_append, length_writeSingles, length_writeSingles,
      hk, hv, ← writeRows, ih, List.length_cons]
    have : (rows.length + 1) * 2 * n * 4 = rows.length * 2 * n * 4 + (n * 4 + n * 4) := by
      rw [Nat.add_mul, Nat.add_mul, Nat.add_mul]
      omega
    omega

theorem readRows_eq_ok_iff : ∀ {layers : Nat} {s r : Bytes} {ks vs : List Vec},
    readRows n layers s = .ok ((ks, vs), r) ↔ s = writeRows (ks.zip vs) ++ r ∧ ks.length = layers ∧
      vs.length = layers ∧ (∀ p ∈ ks.zip vs, p.1.length = n ∧ p.2.length = n) ∧ (0 < layers → Memory.fits n = true)
  | 0, s, r, ks, vs => by
    simp only [readRows, Except.ok.injEq, Prod.mk.injEq]
    constructor
    · rintro ⟨⟨rfl, rfl⟩, rfl⟩
      refine ⟨rfl, rfl, rfl, fun p hp => ?_, fun h => ?_⟩
      · cases hp
      · exact absurd h (Nat.lt_irrefl 0)
    · rintro ⟨rfl, hks, hvs, -, -⟩
      rw [List.length_eq_zero_iff.1 hks, List.length_eq_zero_iff.1 hvs]
      exact ⟨⟨rfl, rfl⟩, rfl⟩
  | layers + 1, s, r, ks, vs => by
    simp only [readRows, bind_eq_ok_iff]
    constructor
    · rintro ⟨⟨k, s₁⟩, hk, ⟨v, s₂⟩, hv, ⟨⟨ks', vs'⟩, s₃⟩, hrows, h⟩
      cases h
      obtain ⟨rfl, hklen, hfits⟩ := readSingles_eq_ok_iff.1 hk
      obtain ⟨rfl, hvlen, -⟩ := readSingles_eq_ok_iff.1 hv
      obtain ⟨rfl, hks, hvs, hall, -⟩ := readRows_eq_ok_iff.1 hrows
      refine ⟨?_, congrArg (· + 1) hks, congrArg (· + 1) hvs, ?_, fun _ => hfits⟩
      · simp only [writeRows, List.zip_cons_cons, List.flatMap_cons, List.append_assoc]
      · rw [List.zip_cons_cons]
        exact List.forall_mem_cons.2 ⟨⟨hklen, hvlen⟩, hall⟩
    · rintro ⟨rfl, hks, hvs, hall, hfits⟩
      obtain ⟨k, ks', rfl⟩ := List.exists_cons_of_length_eq_add_one hks
      obtain ⟨v, vs', rfl⟩ := List.exists_cons_of_length_eq_add_one hvs
      have hmem := hfits (Nat.succ_pos layers)
      rw [List.zip_cons_cons] at hall
      obtain ⟨⟨hklen, hvlen⟩, hall'⟩ := List.forall_mem_cons.1 hall
      refine ⟨(k, writeSingles v ++ (writeRows (ks'.zip vs') ++ r)), readSingles_eq_ok_iff.2 ⟨?_, hklen, hmem⟩,
        (v, writeRows (ks'.zip vs') ++ r), readSingles_eq_ok_iff.2 ⟨rfl, hvlen, hmem⟩, ((ks', vs'), r),
        readRows_eq_ok_iff.2 ⟨rfl, Nat.succ.inj hks, Nat.succ.inj hvs, hall', fun _ => hmem⟩, rfl⟩
      simp only [writeRows, List.zip_cons_cons, List.flatMap_cons, List.append_assoc]

theorem corrupts_readRows : ∀ {layers : Nat}, (0 < layers → Memory.fits n = true) → ∀ s : Bytes,
    Corrupts (readRows n layers s)
  | 0, _, _ => .ok _
  | layers + 1, h, s => by
    have hfits := h (Nat.succ_pos layers)
    exact (corrupts_readSingles hfits s).bind fun _ _ => (corrupts_readSingles hfits _).bind fun _ _ =>
      (corrupts_readRows (fun _ => hfits) _).bind fun _ _ => .ok _

end Snapshot
end CausalLM
