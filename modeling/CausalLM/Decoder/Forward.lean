import CausalLM.Cache
import CausalLM.Decoder.Weights
import CausalLM.Token
/-!
# Decoder.Forward — one token through the network

A token at a position becomes a hidden state, the sum of its embedding and the position's.  Each layer normalises the
state, projects it to a query, a key and a value, stores key and value in the cache, attends to all positions up to
its own, and adds the result back; then it adds a feed-forward block.  The logits are a projection of the last state.

The vectors in between live in buffers that are kept from one token to the next.
-/
namespace CausalLM.Decoder

/-- **The buffers of a forward pass.** -/
structure Workspace where
  hidden : Vec
  norm : Vec
  joint : Vec
  attention : Vec
  projection : Vec
  feedForward : Vec
  scores : Vec
  logits : Vec
  deriving DecidableEq, Repr

namespace Workspace

def new (h : Hyperparameters) : Except Error Workspace := do
  let hidden ← Memory.zeros h.width
  let norm ← Memory.zeros h.width
  let joint ← Memory.zeros (Weights.jointWidth h)
  let attention ← Memory.zeros h.width
  let projection ← Memory.zeros h.width
  let feedForward ← Memory.zeros h.feedForward
  let scores ← Memory.zeros h.context
  let logits ← Memory.zeros h.vocab
  return { hidden, norm, joint, attention, projection, feedForward, scores, logits }

def bytes (h : Hyperparameters) : Nat :=
  Word.satMul (Word.satSum [5 * h.width, 2 * h.rowWidth, h.feedForward, h.context, h.vocab]) Memory.singleBytes

end Workspace

/-- **What a forward pass changes.** -/
structure Pass where
  cache : Cache
  work : Workspace
  deriving DecidableEq, Repr

/-- A step of a forward pass.  A step that fails leaves what it has changed so far. -/
abbrev Forward := ExceptT Error (StateM Pass)

namespace Forward

def modifyWork (f : Workspace → Workspace) : Forward Unit := modify fun p => { p with work := f p.work }

def getWork : Forward Workspace := return (← get).work

end Forward

/-! ## Attention -/

/-- The numbers of one head in row `t` of `rows`. -/
def headRow (rows : Vec) (rowWidth headWidth offset t : Nat) : Vec :=
  (rows.drop (t * rowWidth + offset)).take headWidth

/-- The scores of one query head against the keys of `n` positions, as probabilities. -/
def headScores (k : Kernels) (h : Hyperparameters) (query keys : Vec) (offset n : Nat) : Vec :=
  let scale := Single.one / (Single.ofNat h.headWidth).sqrt
  k.softmax ((List.range n).map fun t => k.dot query (headRow keys h.rowWidth h.headWidth offset t) * scale)

/-- The values of all positions, weighted by their scores and added up from zero. -/
def weightedValues (h : Hyperparameters) (scores values : Vec) (offset : Nat) : Vec :=
  (scores.zipIdx).foldl
    (fun out (s, t) => Vec.update (fun o v => o + s * v) out (headRow values h.rowWidth h.headWidth offset t))
    (List.replicate h.headWidth .zero)

/-- The key and value head that query head `i` reads, as an offset into a row. -/
def headOffset (h : Hyperparameters) (i : Nat) : Nat := i / (h.heads / h.headsKV) * h.headWidth

/-- The scores of query head `i`. -/
def scoresOfHead (k : Kernels) (h : Hyperparameters) (query keys : Vec) (n i : Nat) : Vec :=
  headScores k h ((query.drop (i * h.headWidth)).take h.headWidth) keys (headOffset h i) n

/-- **Attention** of one query row over `n` positions: the heads side by side. -/
def attend (k : Kernels) (h : Hyperparameters) (query keys values : Vec) (n : Nat) : Vec :=
  (List.range h.heads).flatMap fun i =>
    weightedValues h (scoresOfHead k h query keys n i) values (headOffset h i)

/-! ## Layers -/

open Forward

def normaliseHidden (k : Kernels) (h : Hyperparameters) (weight bias : Tensor) : Forward Unit :=
  modifyWork fun w =>
    { w with norm := Vec.overlay (k.normalise w.hidden weight.data.toList bias.data.toList h.epsilon) w.norm }

/-- The attention block of layer `i`. -/
def attentionBlock (k : Kernels) (h : Hyperparameters) (i position : Nat) (l : Layer) : Forward Unit := do
  normaliseHidden k h l.attnNormWeight l.attnNormBias
  let w ← getWork
  let joint ← liftM (l.qkvWeight.apply k w.norm l.qkvBias w.joint.length)
  modifyWork fun w => { w with joint }
  let query := joint.take h.width
  let key := (joint.drop h.width).take h.rowWidth
  let value := (joint.drop h.width).drop h.rowWidth
  let cache ← liftM ((← get).cache.write i position key value)
  modify fun p => { p with cache }
  let n := position + 1
  let keys := cache.keys i n
  let values := cache.values i n
  modifyWork fun w =>
    { w with
      scores := Vec.overlay (scoresOfHead k h query keys n (h.heads - 1)) w.scores
      attention := Vec.overlay (attend k h query keys values n) (List.replicate w.attention.length .zero) }
  let w ← getWork
  let projection ← liftM (l.attnOutWeight.apply k w.attention l.attnOutBias w.projection.length)
  modifyWork fun w => { w with projection, hidden := k.add w.hidden projection }

def feedForwardBlock (k : Kernels) (h : Hyperparameters) (l : Layer) : Forward Unit := do
  normaliseHidden k h l.ffnNormWeight l.ffnNormBias
  let w ← getWork
  let up ← liftM (l.upWeight.apply k w.norm l.upBias w.feedForward.length)
  modifyWork fun w => { w with feedForward := k.gelu up }
  let w ← getWork
  let projection ← liftM (l.downWeight.apply k w.feedForward l.downBias w.projection.length)
  modifyWork fun w => { w with projection, hidden := k.add w.hidden projection }

/-- The layers from number `i` on. -/
def runLayers (k : Kernels) (h : Hyperparameters) (position : Nat) : Nat → List Layer → Forward Unit
  | _, [] => return
  | i, l :: rest => do
    attentionBlock k h i position l
    feedForwardBlock k h l
    runLayers k h position (i + 1) rest

/-- **One token at a position.**  Its key and value rows go into the cache, its hidden state stays in the buffers. -/
def runToken (k : Kernels) (h : Hyperparameters) (w : Weights) (token : Token) (position : Nat) : Forward Unit := do
  match token.index?.bind w.tokenEmbedding.row? with
  | none => throw (.config ("token " ++ token.text ++ " outside vocabulary"))
  | some embedding => match w.positionEmbedding.row? position with
    | none => throw (.contextOverflow position 1 h.context)
    | some place =>
      modifyWork fun b => { b with hidden := Vec.overlay (List.zipWith (· + ·) embedding place) b.hidden }
      runLayers k h position 0 w.layers

/-- **The logits** of the hidden state in the buffers. -/
def projectLogits (k : Kernels) (h : Hyperparameters) (w : Weights) : Forward Unit := do
  normaliseHidden k h w.outputNormWeight w.outputNormBias
  let b ← getWork
  let logits ← liftM (w.head.apply k b.norm none b.logits.length)
  modifyWork fun b => { b with logits }

/-- Tokens from a position on; each counts in the cache once it is through. -/
def runTokens (k : Kernels) (h : Hyperparameters) (w : Weights) : Nat → List Token → Forward Unit
  | _, [] => return
  | position, t :: rest => do
    runToken k h w t position
    modify fun p => { p with cache := p.cache.commit (position + 1) }
    runTokens k h w (position + 1) rest

end CausalLM.Decoder
