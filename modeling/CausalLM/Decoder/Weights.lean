import CausalLM.Hyperparameters
import CausalLM.WeightStore
/-!
# Decoder.Weights — the tensors of a decoder

A decoder needs an embedding of tokens and of positions, a final normalisation, and twelve tensors per layer.  They
are moved out of a store by name, each checked against the shape that the sizes imply.  Without an output projection
of its own the decoder projects with the token embedding.
-/
namespace CausalLM.Decoder

/-- **The tensors of one layer.** -/
structure Layer where
  attnNormWeight : Tensor
  attnNormBias : Tensor
  qkvWeight : Tensor
  qkvBias : Tensor
  attnOutWeight : Tensor
  attnOutBias : Tensor
  ffnNormWeight : Tensor
  ffnNormBias : Tensor
  upWeight : Tensor
  upBias : Tensor
  downWeight : Tensor
  downBias : Tensor
  deriving DecidableEq, Repr

/-- **The tensors of a decoder.** -/
structure Weights where
  tokenEmbedding : Tensor
  positionEmbedding : Tensor
  outputNormWeight : Tensor
  outputNormBias : Tensor
  /-- The output projection, if it has one of its own. -/
  output : Option Tensor
  layers : List Layer
  deriving DecidableEq, Repr

namespace Weights

/-- Moves a tensor out of the store if it has the shape expected of it. -/
def take (name : String) (dims : List Nat) : StateT WeightStore (Except Error) Tensor := fun store => do
  let (t, store) ← store.take name
  if t.dims ≠ dims then
    throw (.formatMismatch ("tensor '" ++ name ++ "' has shape " ++ Container.showDims t.dims ++ ", expected " ++
      Container.showDims dims))
  return (t, store)

/-- The name of a tensor of layer `i`. -/
def layerName (i : Nat) (name : String) : String := "blk." ++ toString i ++ "." ++ name

/-- The width of the joint projection to query, key and value. -/
def jointWidth (h : Hyperparameters) : Nat := h.width + 2 * h.rowWidth

/-- The tensors of layer `i`. -/
def takeLayer (h : Hyperparameters) (i : Nat) : StateT WeightStore (Except Error) Layer := do
  let name := layerName i
  let attnNormWeight ← take (name "attn_norm.weight") [h.width]
  let attnNormBias ← take (name "attn_norm.bias") [h.width]
  let qkvWeight ← take (name "attn_qkv.weight") [h.width, jointWidth h]
  let qkvBias ← take (name "attn_qkv.bias") [jointWidth h]
  let attnOutWeight ← take (name "attn_output.weight") [h.width, h.width]
  let attnOutBias ← take (name "attn_output.bias") [h.width]
  let ffnNormWeight ← take (name "ffn_norm.weight") [h.width]
  let ffnNormBias ← take (name "ffn_norm.bias") [h.width]
  let upWeight ← take (name "ffn_up.weight") [h.width, h.feedForward]
  let upBias ← take (name "ffn_up.bias") [h.feedForward]
  let downWeight ← take (name "ffn_down.weight") [h.feedForward, h.width]
  let downBias ← take (name "ffn_down.bias") [h.width]
  return { attnNormWeight, attnNormBias, qkvWeight, qkvBias, attnOutWeight, attnOutBias,
           ffnNormWeight, ffnNormBias, upWeight, upBias, downWeight, downBias }

/-- The tensors of `n` layers from layer `i` on. -/
def takeLayers (h : Hyperparameters) (i : Nat) : Nat → StateT WeightStore (Except Error) (List Layer)
  | 0 => return []
  | n + 1 => do
    let layer ← takeLayer h i
    let layers ← takeLayers h (i + 1) n
    return layer :: layers

def outputName : String := "output.weight"

/-- The output projection, if the store has one. -/
def takeOutput (h : Hyperparameters) (hasOutput : Bool) : StateT WeightStore (Except Error) (Option Tensor) :=
  if hasOutput then some <$> take outputName [h.width, h.vocab] else pure none

/-- All tensors, the output projection last. -/
def takeAll (h : Hyperparameters) (hasOutput : Bool) : StateT WeightStore (Except Error) Weights := do
  let tokenEmbedding ← take "token_embd.weight" [h.width, h.vocab]
  let positionEmbedding ← take "position_embd.weight" [h.width, h.context]
  let outputNormWeight ← take "output_norm.weight" [h.width]
  let outputNormBias ← take "output_norm.bias" [h.width]
  let layers ← takeLayers h 0 h.layers
  let output ← takeOutput h hasOutput
  return { tokenEmbedding, positionEmbedding, outputNormWeight, outputNormBias, output, layers }

/-- **The tensors of a decoder, out of a store.** -/
def ofStore (store : WeightStore) (h : Hyperparameters) : Except Error Weights := do
  let (w, _) ← takeAll h (store.get? outputName).isSome store
  return w

/-- What projects the last hidden state to logits. -/
def head (w : Weights) : Tensor := w.output.getD w.tokenEmbedding

end Weights
end CausalLM.Decoder
