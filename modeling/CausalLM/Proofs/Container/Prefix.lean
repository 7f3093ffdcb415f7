import CausalLM.Container.Probe
import CausalLM.Proofs.Container.Limits
import CausalLM.Proofs.Number.Word
/-!
# Proofs.Container.Prefix — a header ends where it ends

What a reader reads it takes off the front of the bytes: nothing behind that front has a say, and with less than that
front the bytes run out (`Reader.TakesOff`).  Every reader of a header is of this kind (`Reader.PrefixAt`), because
fields of known length are and `do` keeps it.  So the header is a prefix code, and tensor data starts at the first
multiple of the alignment behind it (`Header.prefixCode_parse`).
-/
namespace CausalLM

namespace Container

namespace Reader

variable {α β : Type} {s r : Bytes} {a : α} {e : Error}

theorem length_lt_of_plain {x : Reading α s} (h : plain x = .ok (a, r)) : r.length < s.length := by
  cases x with
  | error e => cases h
  | ok p =>
    cases h
    exact p.2.2

/-- **The reader takes `a` off the front `b`**: it leaves what comes behind, and where `b` is cut short the bytes run
out. -/
structure TakesOff (f : Reader α) (b : Bytes) (a : α) : Prop where
  append : ∀ r, f (b ++ r) = .ok (a, r)
  take : ∀ n < b.length, f (b.take n) = .error truncatedHeader

/-- **From `s` on the reader reads a prefix code.**  What it reads it takes off a front of `s`, and it fails only by
refusing the format. -/
structure PrefixAt (f : Reader α) (s : Bytes) : Prop where
  of_ok : ∀ a r, f s = .ok (a, r) → ∃ b, s = b ++ r ∧ f.TakesOff b a
  of_error : ∀ e, f s = .error e → ∃ why, e = .formatMismatch why

theorem PrefixAt.length_le {f : Reader α} (h : f.PrefixAt s) (hf : f s = .ok (a, r)) : r.length ≤ s.length := by
  obtain ⟨b, rfl, -⟩ := h.of_ok a r hf
  simp

theorem TakesOff.bind {f : Reader α} {g : α → Reader β} {b b' : Bytes} {c : β} (hf : f.TakesOff b a)
    (hg : (g a).TakesOff b' c) : (f >>= g).TakesOff (b ++ b') c where
  append r := by rw [List.append_assoc, bind_of_ok (hf.append (b' ++ r)), hg.append]
  take n hn := by
    rw [List.take_append]
    by_cases hshort : n < b.length
    · have hnone : b'.take (n - b.length) = [] := by simp; omega
      rw [hnone, List.append_nil, bind_of_error (hf.take n hshort)]
    · rw [List.take_of_length_le (Nat.le_of_not_lt hshort), bind_of_ok (hf.append _)]
      refine hg.take _ ?_
      rw [List.length_append] at hn
      omega

theorem PrefixAt.bind {f : Reader α} {g : α → Reader β} (hf : f.PrefixAt s)
    (hg : ∀ a r, f s = .ok (a, r) → (g a).PrefixAt r) : (f >>= g).PrefixAt s := by
  cases hfs : f s with
  | error e =>
    refine ⟨fun c t h => ?_, fun e' h => ?_⟩
    · rw [bind_of_error hfs] at h
      cases h
    · rw [bind_of_error hfs] at h
      cases h
      exact hf.of_error e hfs
  | ok p =>
    obtain ⟨a, r⟩ := p
    have hga := hg a r hfs
    refine ⟨fun c t h => ?_, fun e' h => ?_⟩
    · rw [bind_of_ok hfs] at h
      obtain ⟨b, hs, hb⟩ := hf.of_ok a r hfs
      obtain ⟨b', hr, hb'⟩ := hga.of_ok c t h
      exact ⟨b ++ b', by rw [hs, hr, List.append_assoc], hb.bind hb'⟩
    · rw [bind_of_ok hfs] at h
      exact hga.of_error e' h

theorem prefixAt_pure (a : α) (s : Bytes) : (pure a : Reader α).PrefixAt s where
  of_ok a' r h := by
    cases h
    exact ⟨[], rfl, fun _ => rfl, fun n hn => absurd hn (Nat.not_lt_zero n)⟩
  of_error e h := by cases h

theorem prefixAt_refuse (why : String) (s : Bytes) : (refuse why : Reader α).PrefixAt s where
  of_ok a r h := by cases h
  of_error e h := by
    cases h
    exact ⟨why, rfl⟩

theorem PrefixAt.map {f : Reader α} (hf : f.PrefixAt s) (g : α → β) : (do return g (← f) : Reader β).PrefixAt s :=
  hf.bind fun a r _ => prefixAt_pure (g a) r

theorem prefixAt_field (n : Nat) (s : Bytes) : (field n).PrefixAt s := by
  cases hsplit : Bytes.split? n s with
  | none =>
    refine ⟨fun b r h => ?_, fun e h => ?_⟩
    · rw [field_of_none hsplit] at h
      cases h
    · rw [field_of_none hsplit] at h
      cases h
      exact ⟨_, rfl⟩
  | some p =>
    obtain ⟨b, r⟩ := p
    refine ⟨fun b' r' h => ?_, fun e h => ?_⟩
    · rw [field_of_some hsplit] at h
      cases h
      obtain ⟨rfl, rfl⟩ := Bytes.split?_eq_some_iff.1 hsplit
      refine ⟨b, rfl, fun t => field_of_some (Bytes.split?_eq_some_iff.2 ⟨rfl, rfl⟩), fun k hk => ?_⟩
      exact field_of_none (Bytes.split?_eq_none_iff.2 (by simp; omega))
    · rw [field_of_some hsplit] at h
      cases h

theorem prefixAt_word32 (s : Bytes) : word32.PrefixAt s := (prefixAt_field 4 s).map _

theorem prefixAt_word64 (s : Bytes) : word64.PrefixAt s := (prefixAt_field 8 s).map _

theorem prefixAt_string (s : Bytes) : string.PrefixAt s := by
  refine (prefixAt_word64 s).bind fun n r _ => ?_
  split
  · exact prefixAt_refuse _ r
  · exact (prefixAt_field n r).map _

theorem prefixAt_repeated {f : Reader α} : ∀ (n : Nat) {s : Bytes},
    (∀ t : Bytes, t.length ≤ s.length → f.PrefixAt t) → (repeated f n).PrefixAt s
  | 0, s, _ => prefixAt_pure [] s
  | n + 1, s, h => by
    refine (h s (Nat.le_refl _)).bind fun a r hf => ?_
    have hr := (h s (Nat.le_refl _)).length_le hf
    exact (prefixAt_repeated n fun t ht => h t (Nat.le_trans ht hr)).map _

theorem prefixAt_value (type : Nat) (s : Bytes) : (value type).PrefixAt s := by
  rw [value_eq]
  split
  · exact (prefixAt_string s).map _
  split
  · refine (prefixAt_word32 s).bind fun itemType r hword => (prefixAt_word64 r).bind fun n t hcount => ?_
    have hr : r.length < s.length := length_lt_of_plain ((plain_word32 s).trans hword)
    have ht : t.length < r.length := length_lt_of_plain ((plain_word64 r).trans hcount)
    split
    · exact prefixAt_refuse _ t
    -- two words stand in front of the items, so an item has fewer bytes than the array
    · exact (prefixAt_repeated n fun u hu => prefixAt_value itemType u).map _
  · rw [scalar]
    split
    · exact (prefixAt_field _ s).map _
    · exact prefixAt_refuse _ s
termination_by s.length

theorem prefixAt_pair (s : Bytes) : pair.PrefixAt s :=
  (prefixAt_string s).bind fun _ r _ => (prefixAt_word32 r).bind fun type t _ => (prefixAt_value type t).map _

theorem prefixAt_tensor (total : Nat) (s : Bytes) : (tensor total).PrefixAt s := by
  refine (prefixAt_string s).bind fun name r _ => (prefixAt_word32 r).bind fun n t _ => ?_
  split
  · exact prefixAt_refuse _ t
  refine (prefixAt_repeated n fun u _ => prefixAt_word64 u).bind fun dims u _ =>
    (prefixAt_word32 u).bind fun id v _ => ?_
  split
  · exact prefixAt_refuse _ v
  refine (prefixAt_word64 v).bind fun offset w _ => ?_
  split
  · exact prefixAt_refuse _ w
  · exact prefixAt_pure _ w

theorem prefixAt_tensors : ∀ (n total : Nat) (s : Bytes), (tensors n total).PrefixAt s
  | 0, _, s => prefixAt_pure [] s
  | n + 1, total, s => (prefixAt_tensor total s).bind fun p r _ => (prefixAt_tensors n p.2 r).map _

theorem prefixAt_header (s : Bytes) : header.PrefixAt s := by
  refine (prefixAt_word32 s).bind fun word r _ => ?_
  split
  · exact prefixAt_refuse _ r
  refine (prefixAt_word32 r).bind fun version r _ => ?_
  split
  · exact prefixAt_refuse _ r
  exact (prefixAt_word64 r).bind fun tensorCount r _ => (prefixAt_word64 r).bind fun pairCount r _ =>
    (prefixAt_repeated pairCount fun t _ => prefixAt_pair t).bind fun pairs r _ =>
    (prefixAt_tensors tensorCount 0 r).map _

theorem prefixAt_lead (s : Bytes) : lead.PrefixAt s :=
  (prefixAt_word32 s).bind fun _ r _ => (prefixAt_word32 r).bind fun _ r _ => (prefixAt_word64 r).bind fun _ r _ =>
    (prefixAt_word64 r).map _

/-- What is read of some bytes is read of more, and what was left is left in front of the rest. -/
theorem PrefixAt.append {f : Reader α} (h : f.PrefixAt s) (hf : f s = .ok (a, r)) (t : Bytes) :
    f (s ++ t) = .ok (a, r ++ t) := by
  obtain ⟨b, rfl, hb⟩ := h.of_ok a r hf
  rw [List.append_assoc, hb.append]

end Reader

/-! ## The look at a front -/

namespace Probe

open Reader

variable {s r : Bytes} {e : Error} {key name : String} {v : Metadata.Value}

theorem scanPairs_of_pair (h : pair s = .ok ((key, v), r)) (n : Nat) :
    scanPairs (n + 1) s = if key = "general.architecture" then v.asString else scanPairs n r := by
  obtain ⟨hr, hread⟩ := exists_of_plain ((plain_pair s).trans h)
  rw [scanPairs, hread]

/-- What the first key names in some bytes it names in more. -/
theorem scanPairs_append : ∀ {n : Nat} {s : Bytes}, scanPairs n s = some name → ∀ t, scanPairs n (s ++ t) = some name
  | 0, s, h, t => by cases h
  | n + 1, s, h, t => by
    cases hread : readPair s with
    | error e =>
      rw [scanPairs, hread] at h
      cases h
    | ok p =>
      obtain ⟨⟨key, v⟩, r⟩ := p
      have hpair : pair s = .ok ((key, v), r.1) := by rw [← plain_pair, hread]; rfl
      rw [scanPairs_of_pair hpair] at h
      rw [scanPairs_of_pair ((prefixAt_pair s).append hpair t)]
      split
      · rwa [if_pos ‹_›] at h
      · rw [if_neg ‹_›] at h
        exact scanPairs_append h t

theorem wordOrZero_of_ok {n : Nat} (h : word32 s = .ok (n, r)) : wordOrZero s = (n, r) := by
  obtain ⟨_, hread⟩ := exists_of_plain ((plain_word32 s).trans h)
  rw [wordOrZero, hread]

theorem wordOrZero_of_error (h : word32 s = .error e) : wordOrZero s = (0, []) := by
  rw [← plain_word32] at h
  unfold wordOrZero
  cases hread : readWord32 s with
  | error e => rfl
  | ok p =>
    rw [hread] at h
    cases h

theorem scan_of_ok {tensorCount n : Nat} {t : Bytes} (h : word64 s = .ok (tensorCount, t))
    (h' : word64 t = .ok (n, r)) : scan s = scanPairs n r := by
  obtain ⟨_, hread⟩ := exists_of_plain ((plain_word64 s).trans h)
  obtain ⟨_, hread'⟩ := exists_of_plain ((plain_word64 t).trans h')
  simp only [scan, hread, hread']

theorem exists_of_scan (h : scan s = some name) : ∃ tensorCount t n r,
    word64 s = .ok (tensorCount, t) ∧ word64 t = .ok (n, r) ∧ scanPairs n r = some name := by
  unfold scan at h
  split at h
  · cases h
  rename_i tensorCount t hread
  split at h
  · cases h
  rename_i n r hread'
  refine ⟨tensorCount, t.1, n, r.1, ?_, ?_, h⟩
  · rw [← plain_word64, hread]
    rfl
  · rw [← plain_word64, hread']
    rfl

theorem ofFront_of_lead {word version tensorCount n : Nat} (h : lead s = .ok ((word, version, tensorCount, n), r)) :
    ofFront s = ⟨word, version, if word = Container.magic then scanPairs n r else none⟩ := by
  obtain ⟨r₁, r₂, r₃, h₁, h₂, h₃, h₄⟩ := lead_eq_ok_iff.1 h
  rw [ofFront, wordOrZero_of_ok h₁]
  dsimp only
  rw [wordOrZero_of_ok h₂]
  dsimp only
  rw [scan_of_ok h₃ h₄]

/-- A front that names an architecture has all four words. -/
theorem exists_lead_of_architecture (h : (ofFront s).architecture = some name) : ∃ version tensorCount n r,
    lead s = .ok ((Container.magic, version, tensorCount, n), r) ∧ scanPairs n r = some name := by
  cases h₁ : word32 s with
  | error e =>
    rw [ofFront, wordOrZero_of_error h₁] at h
    cases h
  | ok p₁ =>
    obtain ⟨word, r₁⟩ := p₁
    rw [ofFront, wordOrZero_of_ok h₁] at h
    dsimp only at h
    by_cases hmagic : word = Container.magic
    · rw [if_pos hmagic] at h
      cases h₂ : word32 r₁ with
      | error e =>
        rw [wordOrZero_of_error h₂] at h
        cases h
      | ok p₂ =>
        rw [wordOrZero_of_ok h₂] at h
        obtain ⟨tensorCount, t, n, r, h₃, h₄, hscan⟩ := exists_of_scan h
        exact ⟨p₂.1, tensorCount, n, r, lead_eq_ok_iff.2 ⟨r₁, p₂.2, t, hmagic ▸ h₁, h₂, h₃, h₄⟩, hscan⟩
    · rw [if_neg hmagic] at h
      cases h

/-- **What a front names, every longer front names.** -/
theorem architecture_append (h : (ofFront s).architecture = some name) (t : Bytes) :
    (ofFront (s ++ t)).architecture = some name := by
  obtain ⟨version, tensorCount, n, r, hlead, hscan⟩ := exists_lead_of_architecture h
  rw [ofFront_of_lead ((prefixAt_lead s).append hlead t)]
  dsimp only
  rw [if_pos rfl]
  exact scanPairs_append hscan t

end Probe

/-! ## The header -/

namespace Header

/-- **The header of the file ends at `size`.**  It is the header of every file with the same front; less than that
front is refused; and tensor data starts at the first multiple of the alignment from there, a number that fits in a
word for every file there can be. -/
structure EndsAt (file : Bytes) (h : Header) (size : Nat) : Prop where
  read : Header.read file = .ok (h, size)
  le : size ≤ file.length
  extend : ∀ other : Bytes, other.take size = file.take size → parse other = .ok h
  cut : ∀ n < size, ∃ why, parse (file.take n) = .error (.formatMismatch why)
  aligned : IsLeast {n | h.metadata.alignment ∣ n ∧ size ≤ n} h.dataOffset
  fits : size ≤ 2 ^ 63 → h.dataOffset ≤ Word.max64

theorem endsAt_of_read {file : Bytes} {h : Header} {size : Nat} (hread : read file = .ok (h, size)) :
    EndsAt file h size := by
  obtain ⟨pairs, r, hheader, hmetadata, rfl, hoffset⟩ := Reader.exists_of_read hread
  obtain ⟨b, rfl, hb⟩ := (Reader.prefixAt_header file).of_ok _ r hheader
  have hsize : (b ++ r).length - r.length = b.length := by simp
  have hleast : IsLeast {n | h.metadata.alignment ∣ n ∧ b.length ≤ n} h.dataOffset := by
    rw [hoffset, hsize]
    exact Word.isLeast_roundUp (Metadata.alignment_pos _) _
  rw [hsize] at hread ⊢
  refine ⟨hread, by simp, fun other hother => ?_, fun n hn => ?_, hleast, fun hle => ?_⟩
  · rw [List.take_left] at hother
    have hparts : b ++ other.drop b.length = other := by
      conv => lhs; arg 1; rw [← hother]
      exact List.take_append_drop b.length other
    rw [← hparts, parse_eq_ok_iff]
    refine ⟨b.length, ?_⟩
    rw [hsize] at hoffset
    rw [Reader.read_eq, hb.append]
    simp only [Except.map, List.length_append, Nat.add_sub_cancel, ← hmetadata, ← hoffset]
  · refine ⟨"truncated gguf header", ?_⟩
    rw [List.take_append_of_le_length (Nat.le_of_lt hn), parse, Reader.read_eq, hb.take n hn]
    rfl
  · exact Nat.le_trans (hleast.2 ⟨alignment_dvd_of_parse (parse_eq_ok_iff.2 ⟨_, hread⟩), hle⟩) (by decide)

/-- **The header parser reads a prefix code**: it accepts a file with all of its header, whose end it knows, or it
refuses the format.  And what the look at a front names, it names on every longer front. -/
theorem prefixCode_parse (file : Bytes) :
    ((∃ h size, parse file = .ok h ∧ EndsAt file h size) ∨ ∃ why, parse file = .error (.formatMismatch why)) ∧
      ∀ m n name, m ≤ n → (Probe.ofFront (file.take m)).architecture = some name →
        (Probe.ofFront (file.take n)).architecture = some name := by
  refine ⟨?_, fun m n name hle hname => ?_⟩
  · cases hparse : parse file with
    | ok h =>
      obtain ⟨size, hread⟩ := parse_eq_ok_iff.1 hparse
      exact .inl ⟨h, size, rfl, endsAt_of_read hread⟩
    | error e =>
      rw [parse, map_eq_error_iff, Reader.read_eq, map_eq_error_iff] at hparse
      obtain ⟨why, rfl⟩ := (Reader.prefixAt_header file).of_error e hparse
      exact .inr ⟨why, rfl⟩
  · obtain ⟨k, rfl⟩ := Nat.le.dest hle
    rw [List.take_add]
    exact Probe.architecture_append hname _

end Header
end Container
end CausalLM
