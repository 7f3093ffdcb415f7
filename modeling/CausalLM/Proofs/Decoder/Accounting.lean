import CausalLM.Proofs.Container.Footprint
import CausalLM.Proofs.Decoder.Reach
/-!
# Proofs.Decoder.Accounting — the estimate is what a load accounts for

An estimate is made from the header alone, and a load adds up what it reads, tensor by tensor.  Both come to the same
sum, the exact one, as long as that fits in a word (`requiredBytes_of_load`).
-/
namespace CausalLM.Decoder

open Container (Header TensorInfo Metadata)

variable {h : Hyperparameters}

/-- The numbers that the buffers of a forward pass hold. -/
def Workspace.floats (w : Workspace) : Nat :=
  w.hidden.length + w.norm.length + w.joint.length + w.attention.length + w.projection.length + w.feedForward.length +
    w.scores.length + w.logits.length

/-- **What a loaded model and its evaluation take, in exact numbers**: the file, every tensor it describes in binary32,
keys and values of all positions, the buffers with the logits and the history, and the tables. -/
def exactUsage (file : Bytes) (header : Header) (s : Session) : MemoryUsage where
  weights := 4 * (header.tensors.map TensorInfo.count).sum
  mapped := file.length
  cache := 8 * (s.model.hyperparameters.layers * s.model.hyperparameters.context * s.model.hyperparameters.rowWidth)
  scratch := 4 * (s.evaluation.work.floats + s.evaluation.logits.length + s.model.hyperparameters.context)
  tables := header.footprint + Vocabulary.footprint (header.metadata.strings "tokenizer.ggml.tokens")
    (header.metadata.strings "tokenizer.ggml.merges")

theorem stringStats_eq (m : Metadata) (key : String) :
    m.stringStats key = ((m.strings key).length, ((m.strings key).map String.utf8ByteSize).sum) := by
  have hfold : ∀ (texts : List String) (acc : Nat), texts.foldl (fun total text => total + text.utf8ByteSize) acc =
      acc + (texts.map String.utf8ByteSize).sum := by
    intro texts
    induction texts with
    | nil => intro acc; rfl
    | cons text texts ih =>
      intro acc
      rw [List.foldl_cons, ih, List.map_cons, List.sum_cons, Nat.add_assoc]
  rw [Metadata.stringStats, hfold, Nat.zero_add]

theorem Model.tableBytesOf_eq {header : Header} (hfits : header.footprint +
    Vocabulary.footprint (header.metadata.strings "tokenizer.ggml.tokens")
      (header.metadata.strings "tokenizer.ggml.merges") ≤ Word.max64) :
    tableBytesOf header = header.footprint + Vocabulary.footprint (header.metadata.strings "tokenizer.ggml.tokens")
      (header.metadata.strings "tokenizer.ggml.merges") := by
  rw [tableBytesOf, stringStats_eq, stringStats_eq]
  dsimp only
  rw [Container.Header.heapBound_eq (by omega), Vocabulary.heapBound_eq (by omega), Word.satAdd_of_le hfits]

theorem Model.cacheBytes_eq (hv : h.Valid) (hfits : 8 * (h.layers * h.context * h.rowWidth) ≤ Word.max64) :
    cacheBytes h = 8 * (h.layers * h.context * h.rowWidth) := by
  have hlayers : h.layers ≤ Word.max64 := by
    have := hv.small ("n_layer", h.layers) (by simp [Hyperparameters.sizes])
    have hmax : Word.max64 = 2 ^ 64 - 1 := rfl
    omega
  have hfold := Word.foldl_satMul [h.rowWidth, h.context, 2, 4] h.layers
  have hproduct : [h.rowWidth, h.context, 2, 4].foldl (· * ·) h.layers = 8 * (h.layers * h.context * h.rowWidth) := by
    simp only [List.foldl_cons, List.foldl_nil]
    rw [Nat.mul_right_comm h.layers]
    omega
  rw [Nat.min_eq_left hlayers, hproduct, Nat.min_eq_left hfits] at hfold
  exact hfold

theorem Workspace.Sized.floats_eq {w : Workspace} (hw : w.Sized h) :
    w.floats = 5 * h.width + 2 * h.rowWidth + h.feedForward + h.context + h.vocab := by
  rw [floats, hw.hidden, hw.norm, hw.joint, hw.attention, hw.projection, hw.feedForward, hw.scores, hw.logits,
    Weights.jointWidth]
  omega

theorem Model.workingBytes_eq {w : Workspace} {logits : Vec} (hw : w.Sized h) (hlogits : logits.length = h.vocab)
    (hfits : 4 * (w.floats + logits.length + h.context) ≤ Word.max64) :
    workingBytes h = 4 * (w.floats + logits.length + h.context) := by
  have hsum : [5 * h.width, 2 * h.rowWidth, h.feedForward, h.context, h.vocab].sum = w.floats := by
    rw [hw.floats_eq]
    simp only [List.sum_cons, List.sum_nil]
    omega
  have hbytes : Workspace.bytes h = w.floats * 4 := by
    rw [Workspace.bytes, Word.satSum_eq, hsum, Nat.min_eq_left (by omega), Memory.singleBytes,
      Word.satMul_of_le (by omega)]
  rw [workingBytes, hbytes, hlogits]
  omega

/-- What stands behind a loaded engine. -/
theorem of_load {e e' : Engine} {files : Files} {path : String} {loading : Nat}
    (hload : e.load files path loading = (.ok (), e')) : ∃ file header store s, files.read path = .ok file ∧
      Header.parse file = .ok header ∧ Model.readHeader path file = .ok (header, s.model.hyperparameters) ∧
      WeightStore.load file header = .ok store ∧ e'.session = some s ∧
      s.model.weightBytes = store.residentBytes ∧ s.model.mappedBytes = store.mappedBytes ∧
      s.model.tableBytes = Model.tableBytesOf header ∧ s.Sound := by
  rw [Engine.load] at hload
  split at hload
  · cases hload
  rename_i session hsession
  cases hload
  simp only [bind_eq_ok_iff] at hsession
  obtain ⟨file, hfile, model, hmodel, evaluation, hevaluation, hsession⟩ := hsession
  cases hsession
  have hm := Model.valid_of_ofFile hmodel
  have hs := Evaluation.sound_new hm hevaluation
  simp only [Model.ofFile, bind_eq_ok_iff] at hmodel
  obtain ⟨⟨header, h⟩, hheader, tokenizer, -, store, hstore, weights, -, hmodel⟩ := hmodel
  cases hmodel
  have hparse : Header.parse file = .ok header := by
    simp only [Model.readHeader, ↓throw_bind, bind_eq_ok_iff, guard_eq_ok_iff] at hheader
    obtain ⟨header', hparse, -, sizes, -, hheader⟩ := hheader
    cases hheader
    exact hparse
  exact ⟨file, header, store, _, hfile, hparse, hheader, hstore, rfl, rfl, rfl, rfl, ⟨hm, hs⟩⟩

/-- **The estimate is what a load accounts for, to the byte.**  If the exact numbers together fit in a word, the loaded
engine reports them, and the estimate of its file is their sum. -/
theorem requiredBytes_of_load {e e' : Engine} {files : Files} {path : String} {loading : Nat}
    (hload : e.load files path loading = (.ok (), e')) : ∃ file header s, files.read path = .ok file ∧
      Header.parse file = .ok header ∧ e'.session = some s ∧
      ((exactUsage file header s).peak ≤ Word.max64 →
        e'.memoryUsage = exactUsage file header s ∧
        Engine.requiredBytes files path = .ok (exactUsage file header s).peak) := by
  obtain ⟨file, header, store, s, hfile, hparse, hheader, hstore, hsession, hweights, hmapped, htables, hs⟩ :=
    of_load hload
  refine ⟨file, header, s, hfile, hparse, hsession, fun hfits => ?_⟩
  obtain ⟨heach, hcount⟩ := Header.exact_of_parse hparse
  obtain ⟨hresident, hlength⟩ := WeightStore.resident_of_loadInto hstore
  have hfits' := hfits
  simp only [MemoryUsage.peak, exactUsage] at hfits'
  have hcache := Model.cacheBytes_eq hs.model.sizes (by omega)
  have hworking := Model.workingBytes_eq hs.evaluation.sized hs.evaluation.logits_length (by omega)
  have htable : Model.tableBytesOf header = header.footprint +
      Vocabulary.footprint (header.metadata.strings "tokenizer.ggml.tokens")
        (header.metadata.strings "tokenizer.ggml.merges") := Model.tableBytesOf_eq (by omega)
  have hweight : store.residentBytes = 4 * (header.tensors.map TensorInfo.count).sum := by
    rw [hresident, List.map_congr_left heach, Nat.zero_add, Memory.singleBytes, Nat.mul_comm]
  have husage : e'.memoryUsage = exactUsage file header s := by
    rw [Engine.memoryUsage, Engine.model?_eq hsession, Option.map_some, Option.getD_some, Model.memoryUsage, hweights, hmapped, htables,
      hcache, hworking, htable, hweight, hlength, exactUsage]
  refine ⟨husage, ?_⟩
  have hrequired : WeightStore.requiredBytes header file.length =
      file.length + 4 * (header.tensors.map TensorInfo.count).sum := by
    rw [WeightStore.requiredBytes, hcount, Memory.singleBytes, Nat.mul_comm, Word.satMul_of_le (by omega),
      Word.satAdd_of_le (by omega)]
  rw [Engine.requiredBytes, hfile, ok_bind, Model.requiredBytes, hheader, ok_bind]
  dsimp only
  rw [hrequired, htable, hcache, hworking]
  -- the estimate adds in an order of its own, and no part of a sum that fits is cut
  simp (disch := omega) only [Word.satAdd_of_le]
  refine congrArg Except.ok ?_
  simp only [MemoryUsage.peak, exactUsage]
  omega

theorem requiredBytes_of_load_smallest : ∃ e' file header s,
    (Engine.new 0 1).load (fun _ => some smallest.bytes) "smallest" 0 = (.ok (), e') ∧
      e'.memoryUsage = exactUsage file header s ∧
      Engine.requiredBytes (fun _ => some smallest.bytes) "smallest" = .ok (exactUsage file header s).peak := by
  obtain ⟨m, v, hsizes, -, hload⟩ := load_smallest
  obtain ⟨hload, hsession⟩ := hload 0
  obtain ⟨file, header, s, hfile, hparse, hsession', hexact⟩ := requiredBytes_of_load hload
  cases hfile
  rw [Container.parse_bytes readable_smallest] at hparse
  cases hparse
  rw [hsession] at hsession'
  cases hsession'
  have hs := Engine.sound_of_reachable (reachable_smallest .machine 0) _ hsession
  have hfloats : v.work.floats = 15 := by
    rw [hs.evaluation.sized.floats_eq, hsizes]
    decide
  have hlogits : v.logits.length = 2 := by
    rw [hs.evaluation.logits_length, hsizes]
    rfl
  have hcache : 8 * (m.hyperparameters.layers * m.hyperparameters.context * m.hyperparameters.rowWidth) = 16 := by
    rw [hsizes]
    decide
  have hcontext : m.hyperparameters.context = 2 := by rw [hsizes]; rfl
  have hlength : smallest.bytes.length ≤ 2 ^ 20 := by decide +kernel
  have hcount : (smallest.infos.map TensorInfo.count).sum ≤ 2 ^ 20 := by decide +kernel
  have htables : Container.Header.footprint ⟨3, smallest.metadata, smallest.infos,
        Word.roundUp smallest.metadata.alignment smallest.header.length⟩ +
      Vocabulary.footprint (smallest.metadata.strings "tokenizer.ggml.tokens")
        (smallest.metadata.strings "tokenizer.ggml.merges") ≤ 2 ^ 30 := by
    decide +kernel
  have hmax : Word.max64 = 2 ^ 64 - 1 := rfl
  have hfits : (exactUsage smallest.bytes ⟨3, smallest.metadata, smallest.infos,
      Word.roundUp smallest.metadata.alignment smallest.header.length⟩ ⟨m, 0, v⟩).peak ≤ Word.max64 := by
    rw [MemoryUsage.peak, exactUsage]
    dsimp only
    rw [hfloats, hlogits, hcache, hcontext]
    omega
  exact ⟨_, _, _, _, hload, hexact hfits⟩

end CausalLM.Decoder
