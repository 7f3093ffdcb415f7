import CausalLM.Backend
import CausalLM.Decoder.Forward
import CausalLM.Files
import CausalLM.Snapshot
import CausalLM.Text.Quoted
import CausalLM.Tokenizer
/-!
# Decoder.Engine — a decoder and its evaluation

An engine holds a model and the state of one evaluation with it: the cache, the evaluated tokens and the logits of the
last one.  It is a `Backend`.  Several engines can share one model, each with an evaluation of its own.
-/
namespace CausalLM.Decoder

open Container (Header Metadata)

def architecture : String := "starcoder"

/-- The names under which containers know the architecture. -/
def accepts (name : Option String) : Bool :=
  name == some "starcoder" || name == some "gpt_bigcode" || name == some "bigcode"

/-! ## Models -/

/-- **A loaded model.**  It does not change any more, whatever is evaluated with it. -/
structure Model where
  hyperparameters : Hyperparameters
  shape : StateShape
  weights : Weights
  tokenizer : Tokenizer
  endTokens : List Token
  weightBytes : Nat
  mappedBytes : Nat
  tableBytes : Nat

namespace Model

/-- The header and sizes of a file, if it holds a decoder.  `path` is for the message alone. -/
def readHeader (path : String) (file : Bytes) : Except Error (Header × Hyperparameters) := do
  let header ← Header.parse file
  let name := header.metadata.architecture
  if !accepts name then
    throw (.formatMismatch
      (path ++ " is not a starcoder model (architecture " ++ Text.quotedOption name ++ ")"))
  let h ← Hyperparameters.ofMetadata header.metadata (name.getD architecture)
  return (header, { h with architecture := architecture })

/-- A token that metadata names, if it names one; it has to be in the vocabulary. -/
def specialToken (m : Metadata) (key : String) (vocab : Nat) : Except Error (Option Token) :=
  match m.uint? key with
  | none => .ok none
  | some n =>
    if n < 2 ^ 31 ∧ n < vocab then .ok (some (.ofIndex n))
    else .error (.formatMismatch
      (key ++ " = " ++ toString n ++ " outside vocabulary of " ++ toString vocab))

/-- **The tokenizer that metadata describes.** -/
def readTokenizer (m : Metadata) (h : Hyperparameters) : Except Error Tokenizer := do
  Tokenizer.checkModel ((m.string? "tokenizer.ggml.model").getD "gpt2")
  let tokens := m.strings "tokenizer.ggml.tokens"
  if tokens.length ≠ h.vocab then
    throw (.formatMismatch
      ("vocabulary has " ++ toString tokens.length ++ " tokens, model expects " ++ toString h.vocab))
  let types := (m.ints "tokenizer.ggml.token_type").map TokenType.ofId
  let v := ((Vocabulary.ofTokens tokens).withTypes types).withMerges (m.strings "tokenizer.ggml.merges")
  let bos ← specialToken m "tokenizer.ggml.bos_token_id" h.vocab
  let eos ← specialToken m "tokenizer.ggml.eos_token_id" h.vocab
  return Tokenizer.ofVocabulary { v with bos := bos.getD v.bos, eos := eos.getD v.eos }

/-- A bound on the bytes of the header and of the tokenizer's tables. -/
def tableBytesOf (header : Header) : Nat :=
  let (tokens, tokenText) := header.metadata.stringStats "tokenizer.ggml.tokens"
  let (merges, mergeText) := header.metadata.stringStats "tokenizer.ggml.merges"
  Word.satAdd header.heapBound (Vocabulary.heapBound tokens tokenText merges mergeText)

/-- **The tokens that end a text**: the one metadata names, or else the first of the usual ones there is. -/
def findEndTokens (m : Metadata) (t : Tokenizer) : List Token :=
  match m.uint? "tokenizer.ggml.eos_token_id" with
  | some _ => [t.vocabulary.eos]
  | none => (["<|endoftext|>", "</s>"].findSome? t.id?).toList

def cacheBytes (h : Hyperparameters) : Nat := Cache.allocationBytes h.layers h.rowWidth h.context

/-- Bytes of an evaluation besides its cache: buffers, logits and history. -/
def workingBytes (h : Hyperparameters) : Nat := Workspace.bytes h + h.vocab * 4 + h.context * 4

/-- **The model in a file.** -/
def ofFile (path : String) (file : Bytes) : Except Error Model := do
  let (header, h) ← readHeader path file
  let tokenizer ← readTokenizer header.metadata h
  let store ← WeightStore.load file header
  let weights ← Weights.ofStore store h
  return {
    hyperparameters := h
    shape := .ofHyperparameters h
    weights
    tokenizer
    endTokens := findEndTokens header.metadata tokenizer
    weightBytes := store.residentBytes
    mappedBytes := store.mappedBytes
    tableBytes := tableBytesOf header }

/-- **A bound on the bytes that loading a file takes**, from its header and length alone. -/
def requiredBytes (path : String) (file : Bytes) : Except Error Nat := do
  let (header, h) ← readHeader path file
  return Word.satAdd
    (Word.satAdd (Word.satAdd (WeightStore.requiredBytes header file.length) (tableBytesOf header)) (cacheBytes h))
    (workingBytes h)

/-- What a model and one evaluation with it take. -/
def memoryUsage (m : Model) : MemoryUsage where
  weights := m.weightBytes
  mapped := m.mappedBytes
  cache := cacheBytes m.hyperparameters
  scratch := workingBytes m.hyperparameters
  tables := m.tableBytes

end Model

/-! ## Evaluations -/

/-- **The state of an evaluation.** -/
structure Evaluation where
  cache : Cache
  tokens : List Token
  logits : Vec
  /-- The logits are those of the last token. -/
  hasLogits : Bool
  work : Workspace
  deriving DecidableEq, Repr

namespace Evaluation

def new (h : Hyperparameters) : Except Error Evaluation := do
  let cache ← Cache.new h.layers h.rowWidth h.context
  let logits ← Memory.zeros h.vocab
  let work ← Workspace.new h
  return { cache, tokens := [], logits, hasLogits := false, work }

def position (e : Evaluation) : Nat := e.tokens.length

/-- Goes back to the first `n` tokens, if there are more. -/
def truncate (e : Evaluation) (n : Nat) : Evaluation :=
  if n < e.tokens.length then
    { e with tokens := e.tokens.take n, cache := e.cache.commit n, hasLogits := false }
  else e

def clear (e : Evaluation) : Evaluation :=
  { e with tokens := [], cache := e.cache.clear, hasLogits := false }

/-- Stores the rows of a snapshot layer by layer.  A layer that does not fit ends it, the ones before are stored. -/
def loadRows : Nat → List (Vec × Vec) → Cache → Except Error Unit × Cache
  | _, [], c => (.ok (), c)
  | layer, (k, v) :: rest, c => match c.loadFront layer k v with
    | .error e => (.error e, c)
    | .ok c => loadRows (layer + 1) rest c

/-- **Evaluates tokens from a position on**, which is at most the present one.  What was evaluated behind it is given
up first. -/
def extend (k : Kernels) (m : Model) (e : Evaluation) (start : Nat) (tokens : List Token) :
    Except Error Unit × Evaluation :=
  let e := e.truncate start
  let h := m.hyperparameters
  let forward : Forward Unit := do
    runTokens k h m.weights start tokens
    projectLogits k h m.weights
  match forward.run.run ⟨e.cache, e.work⟩ with
  | (.error err, p) => (.error err, { e with cache := p.cache.commit start, work := p.work })
  | (.ok (), p) =>
    (.ok (), { e with
      cache := p.cache
      work := { p.work with logits := e.logits }
      logits := p.work.logits
      hasLogits := true
      tokens := e.tokens ++ tokens })

end Evaluation

/-! ## Engines -/

/-- **A loaded model**, with a number that tells one loading of it from another. -/
structure Loaded where
  model : Model
  loading : Nat

/-- **An engine**: a model and an evaluation, if it has them, a generator, and the number of threads it may use. -/
structure Engine where
  loaded : Option Loaded
  evaluation : Option Evaluation
  rng : Generator
  threads : Nat

/-- A model in use: a loaded model and an evaluation with it. -/
structure Session where
  model : Model
  loading : Nat
  evaluation : Evaluation

namespace Engine

def new (seed : UInt64) (threads : Nat) : Engine := ⟨none, none, ⟨seed⟩, threads⟩

/-- The model, if there is one. -/
def model? (e : Engine) : Option Model := e.loaded.map (·.model)

/-- The model and the evaluation, if there are both. -/
def session (e : Engine) : Option Session :=
  match e.loaded, e.evaluation with
  | some m, some v => some ⟨m.model, m.loading, v⟩
  | _, _ => none

theorem session_eq_some_iff {e : Engine} {s : Session} :
    e.session = some s ↔ e.loaded = some ⟨s.model, s.loading⟩ ∧ e.evaluation = some s.evaluation := by
  obtain ⟨loaded, evaluation, rng, threads⟩ := e
  rcases loaded with _ | m
  · exact ⟨fun h => (by cases h), fun h => (by cases h.1)⟩
  rcases evaluation with _ | v
  · exact ⟨fun h => (by cases h), fun h => (by cases h.2)⟩
  constructor
  · intro h
    cases h
    exact ⟨rfl, rfl⟩
  · rintro ⟨hm, hv⟩
    cases hm
    cases hv
    rfl

/-- Another evaluation with the same model. -/
theorem session_of_loaded_eq {e e' : Engine} {s : Session} {v : Evaluation} (h : e.session = some s)
    (hloaded : e'.loaded = e.loaded) (hv : e'.evaluation = some v) : e'.session = some { s with evaluation := v } :=
  session_eq_some_iff.2 ⟨hloaded.trans (session_eq_some_iff.1 h).1, hv⟩

theorem model?_eq {e : Engine} {s : Session} (h : e.session = some s) : e.model? = some s.model := by
  rw [model?, (session_eq_some_iff.1 h).1]
  rfl

def isLoaded (e : Engine) : Bool := e.loaded.isSome

theorem isLoaded_of_session {e : Engine} {s : Session} (h : e.session = some s) : e.isLoaded = true := by
  rw [isLoaded, (session_eq_some_iff.1 h).1]
  rfl

def unload (e : Engine) : Engine := { e with loaded := none, evaluation := none }

/-- **Loads the model at a path**, giving up the one before, also if it fails.  `loading` tells this loading from all
others. -/
def load (e : Engine) (files : Files) (path : String) (loading : Nat) : Except Error Unit × Engine :=
  let e := e.unload
  let read : Except Error (Model × Evaluation) := do
    let file ← files.read path
    let model ← Model.ofFile path file
    let evaluation ← Evaluation.new model.hyperparameters
    return (model, evaluation)
  match read with
  | .error err => (.error err, e)
  | .ok (model, evaluation) => (.ok (), { e with loaded := some ⟨model, loading⟩, evaluation := some evaluation })

/-- A bound on the bytes that loading the model at a path takes. -/
def requiredBytes (files : Files) (path : String) : Except Error Nat := do
  let file ← files.read path
  Model.requiredBytes path file

/-- **Another engine over the same model**, with an evaluation of its own. -/
def share (other : Engine) (seed : UInt64) : Except Error Engine :=
  match other.loaded with
  | none => .error .notLoaded
  | some m => do
    let evaluation ← Evaluation.new m.model.hyperparameters
    return ⟨some m, some evaluation, ⟨seed⟩, other.threads⟩

/-- Both engines use the same loading of a model. -/
def sharesModelWith (e other : Engine) : Bool :=
  match e.loaded, other.loaded with
  | some m, some n => m.loading == n.loading
  | _, _ => false

/-- Sets the number of threads; at least one. -/
def setThreads (e : Engine) (n : Nat) : Engine := { e with threads := max n 1 }

/-- The first token that is not in the vocabulary. -/
def findForeign (vocab : Nat) (tokens : List Token) : Option Token := tokens.find? (fun t => !t.isBelow vocab)

/-- **Evaluates tokens from the context's position on.**  A context behind the evaluation rewinds it; one ahead of it,
too many tokens, and a token outside the vocabulary are refused before anything changes.

The threads that the work is shared out to are taken to be there: what it comes to does not depend on how many they are,
and that the system refuses to start them is left out. -/
def evaluate (k : Kernels) (e : Engine) (c : Context) (tokens : List Token) :
    Except Error Unit × Engine × Context :=
  match e.session with
  | none => (.error .notLoaded, e, c)
  | some s =>
    let h := s.model.hyperparameters
    if tokens.isEmpty then (.ok (), e, c)
    else if s.evaluation.position < c.position then
      (.error (.config ("context is at position " ++ toString c.position ++ " but only " ++
        toString s.evaluation.position ++ " tokens were evaluated")), e, c)
    else if h.context < c.position + tokens.length then
      (.error (.contextOverflow c.position tokens.length h.context), e, c)
    else match findForeign h.vocab tokens with
      | some bad =>
        (.error (.config ("token " ++ bad.text ++ " outside vocabulary of " ++ toString h.vocab)), e, c)
      | none =>
        match s.evaluation.extend k s.model c.position tokens with
        | (.error err, v) => (.error err, { e with evaluation := some v }, c)
        | (.ok (), v) =>
          (.ok (), { e with evaluation := some v },
            { c with tokens := c.tokens.take c.position ++ tokens, position := v.position })

/-- **Draws the next token** from the logits of the last one evaluated. -/
def sample (e : Engine) (c : Context) : Except Error Token × Engine :=
  match e.session with
  | none => (.error .notLoaded, e)
  | some s =>
    if !s.evaluation.hasLogits then (.error .notReady, e)
    else
      let (r, rng) := c.sampling.draw s.evaluation.logits c.window e.rng
      (r, { e with rng })

def reset (e : Engine) : Except Error Unit × Engine :=
  match e.evaluation with
  | none => (.error .notLoaded, e)
  | some v => (.ok (), { e with evaluation := some v.clear })

def evaluated (e : Engine) : List Token := (e.evaluation.map (·.tokens)).getD []

/-- The exact size of a snapshot taken now; zero without a model. -/
def stateBytes (e : Engine) : Nat :=
  match e.session with
  | none => 0
  | some s =>
    s.model.shape.encodedBytes s.evaluation.position
      (if s.evaluation.hasLogits then s.model.hyperparameters.vocab else 0)

/-- **Writes a snapshot** over the front of a buffer. -/
def save (e : Engine) (buffer : Bytes) : Except Error (Nat × Bytes) :=
  match e.session with
  | none => .error .notLoaded
  | some s =>
    let v := s.evaluation
    Snapshot.encode s.model.shape e.rng.state v.tokens (if v.hasLogits then v.logits else []) v.cache buffer

/-- **Takes over a snapshot.**  One that does not fit the model changes nothing. -/
def restore (e : Engine) (buffer : Bytes) : Except Error Nat × Engine :=
  match e.session with
  | none => (.error .notLoaded, e)
  | some s => match Snapshot.decode s.model.shape buffer with
    | .error err => (.error err, e)
    | .ok (snapshot, used) =>
      let v := s.evaluation
      match Evaluation.loadRows 0 (snapshot.keys.zip snapshot.values) v.cache with
      | (.error err, cache) => (.error err, { e with evaluation := some { v with cache } })
      | (.ok (), cache) =>
        let hasLogits := !snapshot.logits.isEmpty
        let evaluation := { v with
          cache := cache.commit snapshot.tokens.length
          tokens := snapshot.tokens
          hasLogits
          logits := if hasLogits then snapshot.logits else v.logits }
        (.ok used, { e with evaluation := some evaluation, rng := ⟨snapshot.rng⟩ })

def tokenize (e : Engine) (text : String) : Except Error (List Token) :=
  match e.session with
  | none => .error .notLoaded
  | some s => .ok (s.model.tokenizer.encode text)

def tokenBytes (e : Engine) (t : Token) : Bytes := (e.model?.map (·.tokenizer.tokenBytes t)).getD []

def hyperparameters (e : Engine) : Option Hyperparameters := e.model?.map (·.hyperparameters)

def contextLength (e : Engine) : Nat := (e.hyperparameters.map (·.context)).getD 0

def endTokens (e : Engine) : List Token := (e.model?.map (·.endTokens)).getD []

def memoryUsage (e : Engine) : MemoryUsage := (e.model?.map (·.memoryUsage)).getD .none

instance : Backend Engine where
  architecture := fun _ => Decoder.architecture
  isLoaded := isLoaded
  contextLength := contextLength
  endTokens := endTokens
  tokenize := fun e _ text => e.tokenize text
  tokenBytes := tokenBytes
  evaluate := evaluate .machine
  sample := sample
  reset := reset
  evaluated := evaluated
  setSeed := fun e seed => { e with rng := ⟨seed⟩ }
  stateBytes := stateBytes
  save := save
  restore := restore
  hyperparameters := hyperparameters
  memoryUsage := memoryUsage

end Engine
end CausalLM.Decoder
