import CausalLM.Registry
import CausalLM.Proofs.Container.Prefix
import CausalLM.Proofs.Container.RoundTrip
/-!
# Proofs.Container.Probe — what the front of a file names, and what its header names

The look at a front stops at the first `general.architecture` key; in the metadata of the header the last one counts.
Both read the same entries (`Entry.ofFile`), so they name the same architecture where the first and the last say the same,
and nowhere else (`Probe.first_and_last_of_parse`).
-/
namespace CausalLM.Container

/-- **An entry of a file's metadata**: a key, its value, and where in the file it stops. -/
structure Entry where
  key : String
  value : Metadata.Value
  stop : Nat

namespace Entry

/-- So many entries of what starts at a position; fewer where the bytes end or cannot be read. -/
def listFrom (position n : Nat) (s : Bytes) : List Entry :=
  match n with
  | 0 => []
  | n + 1 => match readPair s with
    | .error _ => []
    | .ok ((key, value), r) =>
      let stop := position + (s.length - r.1.length)
      ⟨key, value, stop⟩ :: listFrom stop n r.1

/-- The entries of a file, in order. -/
def ofFile (file : Bytes) : List Entry := listFrom 24 (Bytes.toNat ((file.drop 16).take 8)) (file.drop 24)

def namesArchitecture (e : Entry) : Bool := e.key == "general.architecture"

variable {file s r : Bytes} {key : String} {v : Metadata.Value} {n position : Nat} {e : Entry}

theorem namesArchitecture_iff : e.namesArchitecture = true ↔ e.key = "general.architecture" := beq_iff_eq

theorem listFrom_of_pair (h : Reader.pair s = .ok ((key, v), r)) : listFrom position (n + 1) s =
    ⟨key, v, position + (s.length - r.length)⟩ :: listFrom (position + (s.length - r.length)) n r := by
  obtain ⟨hr, hread⟩ := Reader.exists_of_plain ((Reader.plain_pair s).trans h)
  rw [listFrom, hread]

theorem listFrom_of_error {err : Error} (h : Reader.pair s = .error err) : listFrom position n s = [] := by
  cases n with
  | zero => rfl
  | succ n =>
    have hread : readPair s = .error err := map_eq_error_iff.1 ((Reader.plain_pair s).trans h)
    rw [listFrom, hread]

/-- The entries are the pairs that are read. -/
theorem map_listFrom : ∀ {n : Nat} {s r : Bytes} {pairs : List (String × Metadata.Value)} (position : Nat),
    Reader.repeated Reader.pair n s = .ok (pairs, r) → (listFrom position n s).map (fun e => (e.key, e.value)) = pairs
  | 0, s, r, pairs, position, h => by
    cases h
    rfl
  | n + 1, s, r, pairs, position, h => by
    obtain ⟨p, t, hp, h⟩ := Reader.bind_eq_ok.1 h
    obtain ⟨rest, u, hrest, h⟩ := Reader.bind_eq_ok.1 h
    cases h
    rw [listFrom_of_pair hp, List.map_cons, map_listFrom _ hrest]

theorem le_stop_of_mem : ∀ {n : Nat} {s : Bytes} {position : Nat}, e ∈ listFrom position n s → position ≤ e.stop
  | 0, s, position, h => by cases h
  | n + 1, s, position, h => by
    cases hpair : Reader.pair s with
    | error err =>
      rw [listFrom_of_error hpair] at h
      cases h
    | ok p =>
      rw [listFrom_of_pair hpair] at h
      rcases List.mem_cons.1 h with rfl | h
      · exact Nat.le_add_right _ _
      · exact Nat.le_trans (Nat.le_add_right _ _) (le_stop_of_mem h)

/-- **A look that goes far enough for one architecture entry finds the first.** -/
theorem scanPairs_take : ∀ {n : Nat} {s : Bytes} {position k : Nat}, e ∈ listFrom position n s →
    e.namesArchitecture = true → e.stop ≤ position + k → ∃ first,
      (listFrom position n s).find? namesArchitecture = some first ∧
        Probe.scanPairs n (s.take k) = first.value.asString
  | 0, s, position, k, he, hname, hstop => by cases he
  | n + 1, s, position, k, he, hname, hstop => by
    cases hpair : Reader.pair s with
    | error err =>
      rw [listFrom_of_error hpair] at he
      cases he
    | ok p =>
      obtain ⟨⟨key, v⟩, r⟩ := p
      obtain ⟨b, rfl, hb⟩ := (Reader.prefixAt_pair s).of_ok _ r hpair
      have hlength : (b ++ r).length - r.length = b.length := by simp
      rw [listFrom_of_pair hpair, hlength] at he ⊢
      -- the bytes of this entry are not cut, because none stops before it
      have hfits : b.length ≤ k := by
        rcases List.mem_cons.1 he with rfl | he
        · exact Nat.le_of_add_le_add_left hstop
        · have := le_stop_of_mem he
          omega
      have hcut : Reader.pair ((b ++ r).take k) = .ok ((key, v), r.take (k - b.length)) := by
        rw [List.take_append, List.take_of_length_le hfits, hb.append]
      rw [Probe.scanPairs_of_pair hcut]
      by_cases harch : key = "general.architecture"
      · rw [if_pos harch]
        exact ⟨_, List.find?_cons_of_pos (namesArchitecture_iff.2 harch), rfl⟩
      · have hother : ∀ stop, ¬(Entry.mk key v stop).namesArchitecture = true := fun stop h =>
          harch (namesArchitecture_iff.1 h)
        rw [if_neg harch, List.find?_cons_of_neg (hother _)]
        rcases List.mem_cons.1 he with rfl | he
        · exact absurd hname (hother _)
        · exact scanPairs_take he hname (by omega)

/-! ## Where the entries stand -/

theorem ofFile_append {a c : Bytes} (ha : a.length = 16) (hc : c.length = 8) (r : Bytes) :
    ofFile (a ++ (c ++ r)) = listFrom 24 (Bytes.toNat c) r := by
  have hlead : (a ++ c).length = 24 := by rw [List.length_append, ha, hc]
  rw [ofFile, List.drop_left' ha, List.take_left' hc, ← List.append_assoc, List.drop_left' hlead]

/-- Four words stand in front of the entries; the last is their number. -/
theorem exists_of_lead {word version tensorCount : Nat}
    (h : Reader.lead file = .ok ((word, version, tensorCount, n), r)) :
    ∃ b, file = b ++ r ∧ b.length = 24 ∧ ofFile file = listFrom 24 n r := by
  obtain ⟨r₁, r₂, r₃, h₁, h₂, h₃, h₄⟩ := Reader.lead_eq_ok_iff.1 h
  obtain ⟨b₁, rfl, hb₁, -⟩ := Reader.map_field_eq_ok_iff.1 h₁
  obtain ⟨b₂, rfl, hb₂, -⟩ := Reader.map_field_eq_ok_iff.1 h₂
  obtain ⟨b₃, rfl, hb₃, -⟩ := Reader.map_field_eq_ok_iff.1 h₃
  obtain ⟨b₄, rfl, hb₄, rfl⟩ := Reader.map_field_eq_ok_iff.1 h₄
  have hfront : (b₁ ++ b₂ ++ b₃).length = 16 := by simp [hb₁, hb₂, hb₃]
  have hparts : b₁ ++ (b₂ ++ (b₃ ++ (b₄ ++ r))) = (b₁ ++ b₂ ++ b₃) ++ (b₄ ++ r) := by simp
  refine ⟨b₁ ++ b₂ ++ b₃ ++ b₄, by simp, by rw [List.length_append, hfront, hb₄], ?_⟩
  rw [hparts, ofFile_append hfront hb₄]

/-- **What the front of a parsed file names**: if the architecture entry is in it, what the first such entry does. -/
theorem exists_first {header : Header} {k : Nat} (hparse : Header.parse file = .ok header) (he : e ∈ ofFile file)
    (hname : e.namesArchitecture = true) (hstop : e.stop ≤ k) : ∃ first,
    (ofFile file).find? namesArchitecture = some first ∧
      Probe.ofFront (file.take k) = ⟨magic, header.version, first.value.asString⟩ := by
  obtain ⟨-, tensorCount, n, pairs, r, t, _, hlead, -⟩ := Header.exists_of_parse hparse
  obtain ⟨b, hfile, hb, hentries⟩ := exists_of_lead hlead
  rw [hentries] at he ⊢
  have hk : 24 ≤ k := Nat.le_trans (le_stop_of_mem he) hstop
  obtain ⟨first, hfirst, hscan⟩ := scanPairs_take he hname (by omega : e.stop ≤ 24 + (k - 24))
  refine ⟨first, hfirst, ?_⟩
  have hcut : Reader.lead (file.take k) = .ok ((magic, header.version, tensorCount, n), r.take (k - 24)) := by
    obtain ⟨b', hfile', hb'⟩ := (Reader.prefixAt_lead file).of_ok _ r hlead
    obtain rfl : b = b' := List.append_cancel_right (hfile.symm.trans hfile')
    rw [hfile, List.take_append, List.take_of_length_le (by omega), hb'.append, hb]
  rw [Probe.ofFront_of_lead hcut, if_pos rfl, hscan]

/-- **What the header of a parsed file names**: what the last architecture entry does. -/
theorem exists_last {header : Header} (hparse : Header.parse file = .ok header) (he : e ∈ ofFile file)
    (hname : e.namesArchitecture = true) : ∃ last,
    (ofFile file).reverse.find? namesArchitecture = some last ∧
      header.metadata.architecture = last.value.asString := by
  obtain ⟨-, tensorCount, n, pairs, r, t, _, hlead, hpairs, -, hmetadata⟩ := Header.exists_of_parse hparse
  obtain ⟨b, -, -, hentries⟩ := exists_of_lead hlead
  have hmap := map_listFrom 24 hpairs
  rw [← hentries] at hmap
  have hsome : ((ofFile file).reverse.find? namesArchitecture).isSome = true :=
    List.find?_isSome.2 ⟨e, List.mem_reverse.2 he, hname⟩
  obtain ⟨last, hlast⟩ := Option.isSome_iff_exists.1 hsome
  refine ⟨last, hlast, ?_⟩
  rw [Metadata.architecture, Metadata.string?, hmetadata, Metadata.withPairs, ← hmap, List.foldl_map,
    Metadata.get?_foldl_insert]
  change ((((ofFile file).reverse.find? namesArchitecture).map value).or none).bind _ = _
  rw [hlast]
  rfl

/-! ## The entries of a draft -/

/-- What the pairs of a draft become in its bytes, the first at a position. -/
def listOf (position : Nat) : List (String × Draft.Value) → List Entry
  | [] => []
  | p :: pairs =>
    let stop := position + (Draft.writePair p).length
    ⟨p.1, p.2.toMetadata, stop⟩ :: listOf stop pairs

theorem listFrom_append : ∀ {pairs : List (String × Draft.Value)}, (∀ p ∈ pairs, Draft.ReadablePair p) →
    ∀ (position : Nat) (r : Bytes),
      listFrom position pairs.length (pairs.flatMap Draft.writePair ++ r) = listOf position pairs
  | [], _, _, _ => rfl
  | p :: pairs, h, position, r => by
    obtain ⟨hp, hpairs⟩ := List.forall_mem_cons.1 h
    obtain ⟨hr, hread⟩ := reads_pair hp (pairs.flatMap Draft.writePair ++ r)
    rw [List.flatMap_cons, List.append_assoc, List.length_cons, listFrom, hread]
    have hlength : (Draft.writePair p ++ (pairs.flatMap Draft.writePair ++ r)).length -
        (pairs.flatMap Draft.writePair ++ r).length = (Draft.writePair p).length := by
      rw [List.length_append, Nat.add_sub_cancel]
    simp only [hlength]
    rw [listFrom_append hpairs, listOf]

/-- **The entries of a draft's bytes are its pairs.** -/
theorem ofFile_bytes {d : Draft} (h : d.Readable) : ofFile d.bytes = listOf 24 d.pairs := by
  have hfront : (Bytes.ofNat 4 magic ++ Bytes.ofNat 4 3 ++ Bytes.ofNat 8 d.tensors.length).length = 16 := by simp
  obtain ⟨rest, hparts⟩ : ∃ rest, d.bytes = (Bytes.ofNat 4 magic ++ Bytes.ofNat 4 3 ++ Bytes.ofNat 8 d.tensors.length) ++
      (Bytes.ofNat 8 d.pairs.length ++ (d.pairs.flatMap Draft.writePair ++ rest)) := by
    simp only [Draft.bytes, Draft.padded, Draft.header, List.append_assoc]
    exact ⟨_, rfl⟩
  rw [hparts, ofFile_append hfront (Bytes.length_ofNat 8 _), Bytes.toNat_ofNat_of_lt h.length_pairs,
    listFrom_append h.pairs]

end Entry

/-! ## The architecture -/

/-- **The file is judged as one that names `name`**: selection takes the decoder's backend or none, and a load or an
estimate passes the architecture or refuses it. -/
structure JudgedAs (file : Bytes) (header : Header) (name : Option String) : Prop where
  select : ∀ (engine : Decoder.Engine) (files : Files) (path : String), files.read path = .ok file →
    (Registry.standard engine).select files path = if Decoder.accepts name then .ok engine else .error (.noMatch path)
  readHeader : ∀ path : String, Decoder.Model.readHeader path file =
    if Decoder.accepts name then do
      let h ← Hyperparameters.ofMetadata header.metadata (name.getD Decoder.architecture)
      return (header, { h with architecture := Decoder.architecture })
    else .error (.formatMismatch
      (path ++ " is not a starcoder model (architecture " ++ Text.quotedOption name ++ ")"))

theorem judgedAs {file : Bytes} {header : Header} (hparse : Header.parse file = .ok header)
    (hcontainer : (Probe.ofFile file).isContainer = true)
    (hsame : (Probe.ofFile file).architecture = header.metadata.architecture) :
    JudgedAs file header header.metadata.architecture where
  select engine files path hfile := by
    have haccepts : (Registry.decoderEntry engine).accepts (Probe.ofFile file) =
        Decoder.accepts header.metadata.architecture := by
      simp only [Registry.decoderEntry, hcontainer, hsame, Bool.true_and]
    rw [Registry.select, hfile, ok_bind, Registry.match?, Registry.standard, List.find?_cons, haccepts]
    cases Decoder.accepts header.metadata.architecture <;> rfl
  readHeader path := by
    rw [Decoder.Model.readHeader, hparse, ok_bind]
    dsimp only
    by_cases haccepts : Decoder.accepts header.metadata.architecture = true
    · rw [if_pos haccepts, if_neg (by simp [haccepts])]
    · rw [if_neg haccepts, if_pos (by simpa using haccepts)]
      rfl

/-- **The front names what the first architecture entry says, the header what the last says.**  One entry that ends
within the front is enough.  Where the two say the same, selection and loading judge the file alike. -/
theorem Probe.first_and_last_of_parse {file : Bytes} {header : Header} {e : Entry}
    (hparse : Header.parse file = .ok header) (he : e ∈ Entry.ofFile file) (hname : e.namesArchitecture = true)
    (hseen : e.stop ≤ frontBytes) :
    (ofFile file).isContainer = true ∧ ∃ first last,
      (Entry.ofFile file).find? Entry.namesArchitecture = some first ∧
      (Entry.ofFile file).reverse.find? Entry.namesArchitecture = some last ∧
      (ofFile file).architecture = first.value.asString ∧
      header.metadata.architecture = last.value.asString ∧
      (first.value.asString = last.value.asString → JudgedAs file header header.metadata.architecture) := by
  obtain ⟨first, hfirst, hprobe⟩ := Entry.exists_first hparse he hname hseen
  obtain ⟨last, hlast, hheader⟩ := Entry.exists_last hparse he hname
  have hcontainer : (ofFile file).isContainer = true := by
    rw [ofFile, hprobe, isContainer]
    simpa using (Header.exists_of_parse hparse).1
  refine ⟨hcontainer, first, last, hfirst, hlast, congrArg architecture hprobe, hheader, fun hsame => ?_⟩
  exact judgedAs hparse hcontainer ((congrArg architecture hprobe).trans (hsame.trans hheader.symm))

/-- Two entries for the architecture. -/
def twice (first last : String) : Draft :=
  ⟨[("general.architecture", .string first), ("general.architecture", .string last)], []⟩

theorem mem_ofFile_twice {first last : String} (h : (twice first last).Readable) :
    Entry.mk "general.architecture" (.string first)
      (24 + (Draft.writePair ("general.architecture", .string first)).length) ∈ Entry.ofFile (twice first last).bytes := by
  rw [Entry.ofFile_bytes h, twice, Entry.listOf]
  exact List.mem_cons_self

theorem Probe.first_and_last_of_parse_twice : ∃ header,
    Header.parse (twice "starcoder" "starcoder").bytes = .ok header ∧
      (ofFile (twice "starcoder" "starcoder").bytes).isContainer = true ∧
      JudgedAs (twice "starcoder" "starcoder").bytes header header.metadata.architecture := by
  have hreadable : (twice "starcoder" "starcoder").Readable := by decide
  have hparse := parse_bytes hreadable
  obtain ⟨hcontainer, first, last, hfirst, hlast, -, -, hjudged⟩ :=
    first_and_last_of_parse hparse (mem_ofFile_twice hreadable) rfl (by decide +kernel)
  rw [Entry.ofFile_bytes hreadable] at hfirst hlast
  cases hfirst
  cases hlast
  exact ⟨_, hparse, hcontainer, hjudged rfl⟩

/-- **Two entries with two names are judged by one and by the other.** -/
theorem not_sameArchitecture : ∃ header e, Header.parse (twice "starcoder" "llama").bytes = .ok header ∧
    e ∈ Entry.ofFile (twice "starcoder" "llama").bytes ∧ e.namesArchitecture = true ∧ e.stop ≤ Probe.frontBytes ∧
    (Probe.ofFile (twice "starcoder" "llama").bytes).architecture ≠ header.metadata.architecture := by
  have hreadable : (twice "starcoder" "llama").Readable := by decide
  have hparse := parse_bytes hreadable
  have he := mem_ofFile_twice hreadable
  have hseen : 24 + (Draft.writePair ("general.architecture", .string "starcoder")).length ≤ Probe.frontBytes := by
    decide +kernel
  obtain ⟨first, hfirst, hprobe⟩ := Entry.exists_first hparse he rfl hseen
  obtain ⟨last, hlast, hheader⟩ := Entry.exists_last hparse he rfl
  rw [Entry.ofFile_bytes hreadable] at hfirst hlast
  cases hfirst
  cases hlast
  refine ⟨_, _, hparse, he, rfl, hseen, ?_⟩
  rw [hheader, Probe.ofFile, hprobe]
  decide

end CausalLM.Container
