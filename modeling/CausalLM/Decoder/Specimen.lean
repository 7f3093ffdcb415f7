import CausalLM.Container.Draft
import CausalLM.Hyperparameters
import CausalLM.Random
/-!
# Decoder.Specimen — small models with drawn weights

A specimen is a whole model given by its sizes, its vocabulary and a seed: `Specimen.plan` lists its tensors in their
order in the file, `Specimen.fill` draws them from one generator in that order, and `Specimen.draft` is the container
that holds them.  Norms scale by one and shift by zero.  A plain specimen has zeros for the keys and for the rising
half of the feed-forward layers, so that every exponential it meets is the exponential of zero.
-/
namespace CausalLM.Decoder

open Container

/-- **A small model.** -/
structure Specimen where
  architecture : String := "starcoder"
  layers : Nat := 2
  context : Nat := 16
  width : Nat := 8
  heads : Nat := 2
  headsKV : Nat := 1
  feedForward : Nat := 16
  tokenizer : String := "gpt2"
  vocab : List String := ["a", "b", "</s>"]
  types : List Int := [1, 1, 3]
  merges : List String := []
  /-- The token that ends a text, if the file names one. -/
  eos : Option Nat := some 2
  seed : UInt64 := 1234
  /-- No output projection of its own: the embedding serves. -/
  tied : Bool := false
  /-- Weights in binary16. -/
  half : Bool := false
  plain : Bool := false

namespace Specimen

/-- **What a tensor is filled with.**  Drawn values may be blanked from one place up to another. -/
inductive Filling where
  | ones
  | zeros
  | drawn (blankFrom blankTo : Nat)

/-- A tensor by name, extents and contents. -/
structure Part (α : Type) where
  name : String
  dims : List Nat
  content : α

def rowWidth (s : Specimen) : Nat := s.headsKV * (s.width / s.heads)

def blockPlan (s : Specimen) (i : Nat) : List (Part Filling) :=
  let joint := s.width + 2 * s.rowWidth
  let part := fun name dims content => Part.mk ("blk." ++ toString i ++ "." ++ name) dims content
  let all := Filling.drawn 0 0
  let blank := fun start stop => if s.plain then Filling.drawn start stop else all
  [ part "attn_norm.weight" [s.width] .ones,
    part "attn_norm.bias" [s.width] .zeros,
    part "attn_qkv.weight" [s.width, joint] (blank (s.width * s.width) ((s.width + s.rowWidth) * s.width)),
    part "attn_qkv.bias" [joint] (blank s.width (s.width + s.rowWidth)),
    part "attn_output.weight" [s.width, s.width] all,
    part "attn_output.bias" [s.width] all,
    part "ffn_norm.weight" [s.width] .ones,
    part "ffn_norm.bias" [s.width] .zeros,
    part "ffn_up.weight" [s.width, s.feedForward] (blank 0 (s.width * s.feedForward)),
    part "ffn_up.bias" [s.feedForward] (blank 0 s.feedForward),
    part "ffn_down.weight" [s.feedForward, s.width] all,
    part "ffn_down.bias" [s.width] all ]

/-- **The tensors in order.** -/
def plan (s : Specimen) : List (Part Filling) :=
  let all := Filling.drawn 0 0
  [ ⟨"token_embd.weight", [s.width, s.vocab.length], all⟩,
    ⟨"position_embd.weight", [s.width, s.context], all⟩ ] ++
  (List.range s.layers).flatMap s.blockPlan ++
  [ ⟨"output_norm.weight", [s.width], .ones⟩,
    ⟨"output_norm.bias", [s.width], .zeros⟩ ] ++
  (if s.tied then [] else [⟨"output.weight", [s.width, s.vocab.length], all⟩])

/-- So many weights from the generator, in front of which stand those already drawn, the last first. -/
def drawOnto (g : Generator) (drawn : List Single) : Nat → List Single × Generator
  | 0 => (drawn.reverse, g)
  | n + 1 =>
    let (x, g) := g.nextBetween (.ofValue (-0.5)) (.ofValue 0.5)
    drawOnto g (x.toSingle :: drawn) n

/-- The contents of a tensor of `n` elements. -/
def Filling.values (n : Nat) (g : Generator) : Filling → List Single × Generator
  | ones => (List.replicate n .one, g)
  | zeros => (List.replicate n .zero, g)
  | drawn blankFrom blankTo =>
    let (values, g) := drawOnto g [] n
    (values.zipIdx.map fun (x, i) => if blankFrom ≤ i ∧ i < blankTo then .zero else x, g)

/-- Fills the parts of a plan one after the other. -/
def fill (g : Generator) : List (Part Filling) → List (Part (List Single))
  | [] => []
  | part :: rest =>
    let (values, g) := part.content.values (part.dims.foldl (· * ·) 1) g
    ⟨part.name, part.dims, values⟩ :: fill g rest

/-- **The tensors with their contents.** -/
def parts (s : Specimen) : List (Part (List Single)) := fill ⟨s.seed⟩ s.plan

/-- **The metadata.** -/
def pairs (s : Specimen) : List (String × Draft.Value) :=
  [ ("general.architecture", .string s.architecture),
    (s.architecture ++ ".context_length", .word32 s.context),
    (s.architecture ++ ".embedding_length", .word32 s.width),
    (s.architecture ++ ".feed_forward_length", .word32 s.feedForward),
    (s.architecture ++ ".block_count", .word32 s.layers),
    (s.architecture ++ ".attention.head_count", .word32 s.heads),
    (s.architecture ++ ".attention.head_count_kv", .word32 s.headsKV),
    (s.architecture ++ ".attention.layer_norm_epsilon", .single Hyperparameters.defaultEpsilon),
    ("tokenizer.ggml.model", .string s.tokenizer),
    ("tokenizer.ggml.tokens", .strings s.vocab),
    ("tokenizer.ggml.token_type", .integers s.types),
    ("tokenizer.ggml.merges", .strings s.merges) ] ++
  (s.eos.map fun id => ("tokenizer.ggml.eos_token_id", Draft.Value.word64 id)).toList

def tensor (s : Specimen) (part : Part (List Single)) : Draft.Tensor :=
  if s.half then .ofHalves part.name part.dims part.content else .ofSingles part.name part.dims part.content

/-- **The container of a specimen.** -/
def draft (s : Specimen) : Draft := ⟨s.pairs, s.parts.map s.tensor⟩

end Specimen
end CausalLM.Decoder
