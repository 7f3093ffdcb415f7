import CausalLM.Proofs.Container.Agreement
import CausalLM.Proofs.Container.Limits
/-!
# Proofs.Container.Placement — where data stands and where it is looked for

A draft is padded to the default alignment, whatever alignment its metadata declares, and a header is read with the
declared one.  So the data may stand elsewhere than its header says.  With a larger alignment it is looked for too far
behind, and the last of it beyond the end of the file (`exists_near_end`).  With a smaller one it is looked for too far
ahead, where zeros stand, which only zeros go along with (`eq_zero_of_body`).  Otherwise the two places are one
(`inPlace_parse_iff`).
-/
namespace CausalLM.Container

/-! ## Alignments -/

theorem Metadata.alignment_dvd_or (m : Metadata) : m.alignment ∣ Draft.alignment ∨ Draft.alignment ∣ m.alignment := by
  have hpower := m.isPowerOfTwo_alignment
  rw [isPowerOfTwo, beq_iff_eq] at hpower
  rw [hpower, show Draft.alignment = 2 ^ 5 from rfl]
  rcases Nat.le_total m.alignment.log2 5 with h | h
  · exact .inl (Nat.pow_dvd_pow 2 h)
  · exact .inr (Nat.pow_dvd_pow 2 h)

/-- **Where the declared alignment and the default one meet**: the next multiple of the larger one is nearer than the
smaller one. -/
theorem Metadata.roundUp_alignment_eq_iff (m : Metadata) (n : Nat) :
    Word.roundUp m.alignment n = Word.roundUp Draft.alignment n ↔
      Word.roundUp (max m.alignment Draft.alignment) n < n + min m.alignment Draft.alignment := by
  rcases m.alignment_dvd_or with hdvd | hdvd
  · have hle := Nat.le_of_dvd (by decide) hdvd
    rw [Nat.max_eq_right hle, Nat.min_eq_left hle]
    exact Word.roundUp_eq_roundUp_iff hdvd (by decide) n
  · have hle := Nat.le_of_dvd m.alignment_pos hdvd
    rw [Nat.max_eq_left hle, Nat.min_eq_right hle, eq_comm]
    exact Word.roundUp_eq_roundUp_iff hdvd m.alignment_pos n

namespace Draft

variable {t : Tensor} {offset written start : Nat} {ts : List Tensor}

/-! ## Too far behind -/

/-- Tensors without data take no more than the zeros up to the first of them. -/
theorem length_body_of_empty : ∀ {written offset : Nat} {ts : List Tensor}, (∀ t ∈ ts, t.data = []) →
    written ≤ offset → offset % alignment = 0 → (body written (placed offset ts)).length ≤ offset - written
  | _, _, [], _, _, _ => Nat.zero_le _
  | written, offset, u :: ts, hempty, hle, haligned => by
    obtain ⟨hu, hts⟩ := List.forall_mem_cons.1 hempty
    have hnext : Word.roundUp alignment (offset + u.data.length) = offset := by
      rw [hu, List.length_nil, Nat.add_zero]
      exact Word.roundUp_of_mod (by decide) haligned
    have hrest := length_body_of_empty hts (Nat.le_refl offset) haligned
    rw [placed, body, hnext, hu, List.length_append, List.length_append, List.length_replicate, List.length_nil,
      Nat.add_zero offset]
    omega

/-- **Some data ends less than an alignment before the end of the file**, if there is any. -/
theorem exists_near_end : ∀ {written offset : Nat} {ts : List Tensor}, (∃ t ∈ ts, t.data ≠ []) →
    written ≤ offset → offset % alignment = 0 → ∃ p ∈ placed offset ts, p.1.data ≠ [] ∧
      written + (body written (placed offset ts)).length < p.2 + p.1.data.length + alignment
  | _, _, [], hdata, _, _ => by
    obtain ⟨t, ht, -⟩ := hdata
    cases ht
  | written, offset, u :: ts, hdata, hle, haligned => by
    have hnext := le_roundUp_alignment (offset + u.data.length)
    have hmod := Word.roundUp_mod alignment (offset + u.data.length)
    have hlength : (body written (placed offset (u :: ts))).length = offset - written + u.data.length +
        (body (offset + u.data.length) (placed (Word.roundUp alignment (offset + u.data.length)) ts)).length := by
      rw [placed, body, List.length_append, List.length_append, List.length_replicate]
    by_cases hrest : ∃ t ∈ ts, t.data ≠ []
    · obtain ⟨p, hp, hne, hend⟩ := exists_near_end hrest hnext hmod
      refine ⟨p, by rw [placed]; exact List.mem_cons_of_mem _ hp, hne, ?_⟩
      omega
    · -- nothing with data comes behind this one, so at most its padding does
      have hempty : ∀ t ∈ ts, t.data = [] := fun t ht => Classical.byContradiction fun hne => hrest ⟨t, ht, hne⟩
      have hu : u.data ≠ [] := by
        obtain ⟨t, ht, hne⟩ := hdata
        rcases List.mem_cons.1 ht with rfl | ht
        · exact hne
        · exact absurd (hempty t ht) hne
      have hpadding := length_body_of_empty hempty hnext hmod
      have hlt := Word.roundUp_lt (show 0 < alignment by decide) (offset + u.data.length)
      refine ⟨(u, offset), by rw [placed]; exact List.mem_cons_self, hu, ?_⟩
      dsimp only
      omega

/-! ## Too far ahead -/

/-- Bytes that begin with zeros and go on with themselves are zeros. -/
theorem eq_zero_of_take {k : Nat} (hk : 0 < k) {b : Bytes}
    (h : (List.replicate k (0 : UInt8) ++ b).take b.length = b) : ∀ x ∈ b, x = 0 := by
  have hat : ∀ i, (hi : i < b.length) → b[i] = 0 := by
    intro i
    induction i using Nat.strongRecOn with
    | ind i ih =>
      intro hi
      have hshift : (List.replicate k (0 : UInt8) ++ b)[i]? = some b[i] := by
        rw [← List.getElem?_eq_getElem hi]
        conv => rhs; rw [← h]
        rw [List.getElem?_take_of_lt hi]
      by_cases hfront : i < k
      · rw [List.getElem?_append_left (by rwa [List.length_replicate]), List.getElem?_replicate_of_lt hfront] at hshift
        exact (Option.some.inj hshift).symm
      · have hback : i - k < b.length := by omega
        rw [List.getElem?_append_right (by rw [List.length_replicate]; omega), List.length_replicate,
          List.getElem?_eq_getElem hback] at hshift
        rw [← Option.some.inj hshift]
        exact ih (i - k) (by omega) hback
  intro x hx
  obtain ⟨i, hi, rfl⟩ := List.getElem_of_mem hx
  exact hat i hi

/-- **Data that is found `k` bytes ahead of its place, behind zeros, is zeros.** -/
theorem eq_zero_of_body {k : Nat} (hk : 0 < k) : ∀ {front : Bytes} {written offset : Nat} {ts : List Tensor},
    k ≤ front.length → (∀ b ∈ front, b = 0) → written ≤ offset →
    (∀ p ∈ placed offset ts, ((front ++ body written (placed offset ts)).drop
      (front.length - k + (p.2 - written))).take p.1.data.length = p.1.data) →
    ∀ t ∈ ts, ∀ b ∈ t.data, b = 0
  | _, _, _, [], _, _, _, _ => fun t ht => by cases ht
  | front, written, offset, u :: ts, hlong, hzeros, hle, hfound => by
    have hnext := le_roundUp_alignment (offset + u.data.length)
    rw [placed, body] at hfound
    obtain ⟨hfirst, hothers⟩ := List.forall_mem_cons.1 hfound
    generalize hfront : front ++ List.replicate (offset - written) 0 = front' at hfirst
    have hlength : front'.length = front.length + (offset - written) := by
      rw [← hfront, List.length_append, List.length_replicate]
    have hzeros' : ∀ b ∈ front', b = 0 := by
      intro b hb
      rw [← hfront] at hb
      rcases List.mem_append.1 hb with hb | hb
      · exact hzeros b hb
      · exact List.eq_of_mem_replicate hb
    have hu : ∀ b ∈ u.data, b = 0 := by
      refine eq_zero_of_take hk ?_
      have hlast : front'.drop (front'.length - k) = List.replicate k 0 := by
        refine List.eq_replicate_iff.2 ⟨?_, fun b hb => hzeros' b (List.mem_of_mem_drop hb)⟩
        rw [List.length_drop]
        omega
      have hplace : front.length - k + (offset - written) = front'.length - k := by omega
      rw [List.append_assoc, ← List.append_assoc front, hfront, hplace,
        List.drop_append_of_le_length (Nat.sub_le _ _), hlast, ← List.append_assoc, List.take_append_of_le_length
        (by rw [List.length_append]; exact Nat.le_add_left _ _)] at hfirst
      exact hfirst
    have hboth : ∀ b ∈ front' ++ u.data, b = 0 := by
      intro b hb
      rcases List.mem_append.1 hb with hb | hb
      · exact hzeros' b hb
      · exact hu b hb
    refine List.forall_mem_cons.2 ⟨hu, eq_zero_of_body hk ?_ hboth hnext ?_⟩
    · rw [List.length_append]
      omega
    · rintro ⟨t, start⟩ hp
      have hstart := le_of_mem_placed hp
      have hthere := hothers (t, start) hp
      have hplace : front.length - k + (start - written) =
          (front' ++ u.data).length - k + (start - (offset + u.data.length)) := by
        rw [List.length_append]
        omega
      dsimp only at hthere ⊢
      rwa [hplace, List.append_assoc, ← List.append_assoc front, hfront, ← List.append_assoc front'] at hthere

theorem eq_zero_of_mem_body : ∀ {written : Nat} {ps : List (Tensor × Nat)}, (∀ p ∈ ps, ∀ b ∈ p.1.data, b = 0) →
    ∀ b ∈ body written ps, b = 0
  | _, [], _, b, hb => by cases hb
  | written, (t, offset) :: ps, h, b, hb => by
    obtain ⟨ht, hps⟩ := List.forall_mem_cons.1 h
    rw [body] at hb
    rcases List.mem_append.1 hb with hb | hb
    · rcases List.mem_append.1 hb with hb | hb
      · exact List.eq_of_mem_replicate hb
      · exact ht b hb
    · exact eq_zero_of_mem_body hps b hb

/-! ## Places -/

/-- **The data of every tensor is where a header says.** -/
def InPlace (d : Draft) (header : Header) : Prop :=
  ∀ p ∈ header.tensors.zip d.tensors,
    (d.bytes.drop (header.dataOffset + p.1.offset)).take p.2.data.length = p.2.data

theorem inPlace_of_agree {d : Draft} {header : Header} (htensors : header.tensors = d.infos)
    (hagree : header.dataOffset = Word.roundUp alignment d.header.length) : d.InPlace header := by
  have hdata := d.describes_header.data
  dsimp only at hdata
  unfold InPlace
  rwa [htensors, hagree]

theorem inPlace_iff {d : Draft} {header : Header} (htensors : header.tensors = d.infos) :
    d.InPlace header ↔ ∀ p ∈ placed 0 d.tensors,
      (d.bytes.drop (header.dataOffset + p.2)).take p.1.data.length = p.1.data := by
  unfold InPlace
  rw [htensors, zip_infos, List.forall_mem_map]
  rfl

/-- **A place too far behind takes in the end of the file.** -/
theorem data_eq_nil_of_behind {d : Draft} {header : Header} (htensors : header.tensors = d.infos)
    (hbehind : Word.roundUp alignment d.header.length + alignment ≤ header.dataOffset) (h : d.InPlace header) :
    ∀ t ∈ d.tensors, t.data = [] := by
  intro t ht
  by_contra hne
  obtain ⟨⟨u, start⟩, hp, hu, hend⟩ := exists_near_end ⟨t, ht, hne⟩ (Nat.le_refl 0) (Nat.zero_mod _)
  have hfound := congrArg List.length ((inPlace_iff htensors).1 h _ hp)
  have hpos := List.length_pos_iff.2 hu
  rw [List.length_take, List.length_drop, length_bytes] at hfound
  dsimp only at hend hfound hpos
  omega

/-- **A place too far ahead takes in zeros of the padding.** -/
theorem eq_zero_of_ahead {d : Draft} {header : Header} (htensors : header.tensors = d.infos)
    (hpadding : d.header.length ≤ header.dataOffset)
    (hahead : header.dataOffset < Word.roundUp alignment d.header.length) (h : d.InPlace header) :
    ∀ t ∈ d.tensors, ∀ b ∈ t.data, b = 0 := by
  -- the bytes in front are the zeros behind the header
  have hfront : d.bytes.drop d.header.length =
      List.replicate (Word.roundUp alignment d.header.length - d.header.length) 0 ++ body 0 (placed 0 d.tensors) := by
    rw [bytes, padded, List.append_assoc, List.drop_left]
  have hzeros : ∀ b ∈ List.replicate (Word.roundUp alignment d.header.length - d.header.length) (0 : UInt8), b = 0 :=
    fun b hb => List.eq_of_mem_replicate hb
  refine eq_zero_of_body (Nat.sub_pos_of_lt hahead) ?_ hzeros (Nat.le_refl 0) ?_
  · rw [List.length_replicate]
    omega
  · intro p hp
    have hfound := (inPlace_iff htensors).1 h p hp
    have hplace : header.dataOffset + p.2 = d.header.length +
        (Word.roundUp alignment d.header.length - d.header.length -
          (Word.roundUp alignment d.header.length - header.dataOffset) + (p.2 - 0)) := by omega
    rw [hplace, ← List.drop_drop, hfront] at hfound
    rwa [List.length_replicate]

/-- Zeros are found anywhere behind the header. -/
theorem inPlace_of_zeros {d : Draft} {header : Header} (htensors : header.tensors = d.infos)
    (hpadding : d.header.length ≤ header.dataOffset)
    (hahead : header.dataOffset ≤ Word.roundUp alignment d.header.length)
    (hzeros : ∀ t ∈ d.tensors, ∀ b ∈ t.data, b = 0) : d.InPlace header := by
  have hplaced : ∀ p ∈ placed 0 d.tensors, ∀ b ∈ p.1.data, b = 0 := by
    exact fun p hp => hzeros p.1 (mem_of_mem_placed hp)
  have hbehind : ∀ b ∈ d.bytes.drop d.header.length, b = 0 := by
    intro b hb
    rw [bytes, padded, List.append_assoc, List.drop_left] at hb
    rcases List.mem_append.1 hb with hb | hb
    · exact List.eq_of_mem_replicate hb
    · exact eq_zero_of_mem_body hplaced b hb
  refine (inPlace_iff htensors).2 fun p hp => ?_
  have hend := end_le_of_mem_placed (Nat.le_refl 0) hp
  have hroom : p.1.data.length ≤ (d.bytes.drop (header.dataOffset + p.2)).length := by
    rw [List.length_drop, length_bytes]
    omega
  rw [List.eq_replicate_iff.2 ⟨rfl, hplaced p hp⟩]
  refine List.eq_replicate_iff.2 ⟨?_, fun b hb => ?_⟩
  · rw [List.length_take, List.length_replicate]
    exact Nat.min_eq_left hroom
  · refine hbehind b ?_
    have hfar := List.mem_of_mem_take hb
    rw [show header.dataOffset + p.2 = d.header.length + (header.dataOffset - d.header.length + p.2) by omega,
      ← List.drop_drop] at hfar
    exact List.mem_of_mem_drop hfar

/-! ## The declared alignment -/

/-- **The alignment a number declares**: itself, if it is a power of two. -/
def declared (n : Nat) : Nat := if Metadata.isPowerOfTwo n then n else alignment

theorem alignment_metadata {d : Draft} {n : Nat}
    (h : last? d.pairs "general.alignment" = some (.word32 n) ∨ last? d.pairs "general.alignment" = some (.word64 n)) :
    d.metadata.alignment = declared n := by
  have hn : d.metadata.uint? "general.alignment" = some n := by
    rw [Metadata.uint?, get?_metadata]
    rcases h with h | h
    all_goals
      rw [h]
      rfl
  rw [Metadata.alignment, hn]
  rfl

/-- **When the data of a written draft is where its header says.**  The header is padded to the default alignment and
read with the one that the draft declares.  If both end at the same place, the data is there.  If not, there is either
no data, or it is looked for too far ahead and nothing but zeros. -/
theorem inPlace_parse_iff (d : Draft) (n : Nat) (h : d.Readable)
    (hn : last? d.pairs "general.alignment" = some (.word32 n) ∨ last? d.pairs "general.alignment" = some (.word64 n)) :
    ∃ header, Header.parse d.bytes = .ok header ∧
      header.tensors.map (fun t => (t.name, t.dims, t.type)) = d.tensors.map (fun t => (t.name, t.dims, t.type)) ∧
      header.dataOffset = Word.roundUp (declared n) d.header.length ∧
      (d.InPlace header ↔
        Word.roundUp (max (declared n) alignment) d.header.length < d.header.length + min (declared n) alignment ∨
        (∀ t ∈ d.tensors, t.data = []) ∨
        declared n < alignment ∧ ∀ t ∈ d.tensors, ∀ b ∈ t.data, b = 0) := by
  have hunit := alignment_metadata hn
  refine ⟨_, parse_bytes h, d.describes_header.tensors, by rw [hunit], ?_⟩
  generalize hheader : (⟨3, d.metadata, d.infos, Word.roundUp d.metadata.alignment d.header.length⟩ : Header) = header
  have htensors : header.tensors = d.infos := by rw [← hheader]
  have hplace : header.dataOffset = Word.roundUp (declared n) d.header.length := by rw [← hheader, hunit]
  have hmeet := d.metadata.roundUp_alignment_eq_iff d.header.length
  have hpos := d.metadata.alignment_pos
  have hdvd := d.metadata.alignment_dvd_or
  rw [hunit] at hmeet hpos hdvd
  rw [← hmeet, ← hplace]
  have hpadding : d.header.length ≤ header.dataOffset := hplace ▸ Word.le_roundUp hpos _
  constructor
  · intro hinPlace
    by_cases heq : header.dataOffset = Word.roundUp alignment d.header.length
    · exact .inl heq
    refine .inr ?_
    rcases hdvd with hfine | hcoarse
    · -- the declared alignment divides the default one, so it ends earlier
      have hle := Word.roundUp_le_of_dvd hfine (by decide) d.header.length
      have hne : declared n ≠ alignment := fun hsame => heq (by rw [hplace, hsame])
      have hsmall := Nat.le_of_dvd (by decide) hfine
      exact .inr ⟨by omega, eq_zero_of_ahead htensors hpadding (by omega) hinPlace⟩
    · -- it is a multiple of the default one, so it ends at least one of those behind
      have hle := Word.roundUp_le_of_dvd hcoarse hpos d.header.length
      have hgap : alignment ∣ header.dataOffset - Word.roundUp alignment d.header.length := by
        rw [hplace]
        exact Nat.dvd_sub (hcoarse.trans (Nat.dvd_mul_left _ _)) (Nat.dvd_mul_left _ _)
      have hbehind := Nat.le_of_dvd (by omega) hgap
      exact .inl (data_eq_nil_of_behind htensors (by omega) hinPlace)
  · rintro (heq | hempty | ⟨hfine, hzeros⟩)
    · exact inPlace_of_agree htensors heq
    · refine (inPlace_iff htensors).2 fun p hp => ?_
      rw [hempty p.1 (mem_of_mem_placed hp), List.length_nil, List.take_zero]
    · have hdvd' : declared n ∣ alignment := hdvd.resolve_right fun hcoarse => by
        have := Nat.le_of_dvd hpos hcoarse
        omega
      exact inPlace_of_zeros htensors hpadding (hplace ▸ Word.roundUp_le_of_dvd hdvd' (by decide) _) hzeros

/-- A draft that declares a coarser alignment than it keeps. -/
def coarse : Draft := (empty.add "general.alignment" (.word32 64))
    |>.addTensor (.ofSingles "token_embd" [2] [.one, .two])

/-- Its header ends where the two alignments meet. -/
theorem inPlace_parse_coarse : ∃ header, Header.parse coarse.bytes = .ok header ∧
    header.tensors.map (fun t => (t.name, t.dims, t.type)) = [("token_embd", [2], .f32)] ∧
    header.dataOffset = 128 ∧ coarse.InPlace header := by
  obtain ⟨header, hparse, htensors, hoffset, hiff⟩ :=
    inPlace_parse_iff coarse 64 (by decide +kernel) (.inl rfl)
  exact ⟨header, hparse, htensors, hoffset.trans (by decide +kernel), hiff.2 (.inl (by decide +kernel))⟩

/-- A draft that declares a finer alignment than it keeps. -/
def fine : Draft := (empty.add "general.alignment" (.word32 8))
    |>.addTensor (.ofSingles "token_embd" [2] [.one, .two])

/-- **Nothing is found of the data it holds.** -/
theorem not_inPlace_fine : fine.Readable ∧ last? fine.pairs "general.alignment" = some (.word32 8) ∧
    ∃ header, Header.parse fine.bytes = .ok header ∧ ¬fine.InPlace header := by
  have hreadable : fine.Readable := by decide +kernel
  refine ⟨hreadable, rfl, _, parse_bytes hreadable, fun hinPlace => ?_⟩
  have hfound := (inPlace_iff rfl).1 hinPlace
  revert hfound
  decide +kernel

end Draft
end CausalLM.Container
