import CausalLM.Container.Metadata
import CausalLM.Error
/-!
# Hyperparameters — the sizes of a model

The sizes come from the metadata under the architecture's name.  Widths, heads and layers have to be positive, within
32 bits, and divisible so that every query head has a whole share of the width and of a key and value head.
-/
namespace CausalLM

/-- **The sizes of a model.** -/
structure Hyperparameters where
  architecture : String
  /-- Tokens in the vocabulary. -/
  vocab : Nat
  /-- Positions in the context. -/
  context : Nat
  /-- Width of the hidden state. -/
  width : Nat
  /-- Query heads. -/
  heads : Nat
  /-- Key and value heads. -/
  headsKV : Nat
  layers : Nat
  /-- Width inside the feed-forward block. -/
  feedForward : Nat
  /-- What keeps the variance of a normalised vector from zero. -/
  epsilon : Single
  deriving DecidableEq, Repr, Inhabited

namespace Hyperparameters

/-- The number nearest to `1e-5`. -/
def defaultEpsilon : Single := ⟨0x3727c5ac⟩

/-- The sizes of the one-billion-parameter StarCoder model. -/
def default : Hyperparameters where
  architecture := "starcoder"
  vocab := 49152
  context := 8192
  width := 2048
  heads := 16
  headsKV := 1
  layers := 24
  feedForward := 8192
  epsilon := defaultEpsilon

def headWidth (h : Hyperparameters) : Nat := h.width / h.heads

/-- The width of a key row, or of a value row. -/
def rowWidth (h : Hyperparameters) : Nat := h.headsKV * h.headWidth

/-- The sizes by name, in the order they are checked. -/
def sizes (h : Hyperparameters) : List (String × Nat) :=
  [("n_vocab", h.vocab), ("n_ctx", h.context), ("n_embd", h.width), ("n_head", h.heads),
   ("n_head_kv", h.headsKV), ("n_layer", h.layers), ("n_ff", h.feedForward)]

/-- **The sizes fit together.**  A zero is found before a size that is too large, and that before a remainder. -/
def validate (h : Hyperparameters) : Except Error Unit :=
  match h.sizes.find? (·.2 == 0) with
  | some (name, _) => .error (.formatMismatch ("hyperparameter " ++ name ++ " is zero"))
  | none => match h.sizes.find? (fun size => Word.max32 < size.2) with
    | some (name, n) =>
      .error (.formatMismatch ("hyperparameter " ++ name ++ " = " ++ toString n ++ " is too large"))
    | none =>
      if h.width % h.heads ≠ 0 then
        .error (.formatMismatch
          ("embedding width " ++ toString h.width ++ " not divisible by " ++ toString h.heads ++ " heads"))
      else if h.heads % h.headsKV ≠ 0 then
        .error (.formatMismatch
          (toString h.heads ++ " heads not divisible by " ++ toString h.headsKV ++ " kv heads"))
      else .ok ()

open Container (Metadata)

def required (m : Metadata) (architecture name : String) : Except Error Nat :=
  match m.uint? (architecture ++ "." ++ name) with
  | some n => .ok n
  | none => .error (.formatMismatch ("missing hyperparameter '" ++ architecture ++ "." ++ name ++ "'"))

/-- **The sizes under an architecture's name.**  Without a count of key and value heads there are as many as query
heads; without a feed-forward width it is four times the width; without a vocabulary size there are as many tokens as
the list of them has. -/
def ofMetadata (m : Metadata) (architecture : String) : Except Error Hyperparameters := do
  let width ← required m architecture "embedding_length"
  let heads ← required m architecture "attention.head_count"
  let key := fun name => architecture ++ "." ++ name
  let headsKV := (m.uint? (key "attention.head_count_kv")).getD heads
  let feedForward := (m.uint? (key "feed_forward_length")).getD (Word.satMul width 4)
  let epsilon := ((m.float? (key "attention.layer_norm_epsilon")).map Double.toSingle).getD defaultEpsilon
  let listed := ((m.array? "tokenizer.ggml.tokens").map List.length).getD 0
  let vocab := (m.uint? (key "vocab_size")).getD listed
  let context ← required m architecture "context_length"
  let layers ← required m architecture "block_count"
  let h := { architecture, vocab, context, width, heads, headsKV, layers, feedForward, epsilon }
  validate h
  return h

end Hyperparameters
end CausalLM
