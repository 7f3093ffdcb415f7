import CausalLM.Proofs.Decoder.Shapes
/-!
# Proofs.Decoder.Step — a forward pass without its buffers

What a token does to the history of a cache depends on that history alone.  Here it is as a function: `stepTokens`
takes the key and value rows of every layer and gives them with the rows of more positions, and the last hidden state.
The buffers that the running pass reuses do not occur in it.
-/
namespace CausalLM

theorem Token.index?_of_isBelow {t : Token} {n : Nat} (h : t.isBelow n = true) :
    t.index? = some t.toInt.toNat ∧ t.toInt.toNat < n := by
  obtain ⟨i, hindex, hlt⟩ := Token.isBelow_iff.1 h
  rw [Token.index?] at hindex ⊢
  split at hindex
  · cases hindex
    exact ⟨if_pos ‹_›, hlt⟩
  · cases hindex

namespace Decoder

variable (k : Kernels) (h : Hyperparameters)

/-! ## Maps of one hidden state -/

/-- **A linear map** of a vector: each row of the weight against it, plus the bias. -/
def linear (w : Tensor) (bias : Option Tensor) (x : Vec) : Vec :=
  (List.range w.rows).map fun r => k.dot (w.rowData r) x + ((bias.map fun b => b.data.getD r .zero).getD .zero)

/-- A vector normalised with a weight and a bias. -/
def normalised (weight bias : Tensor) (x : Vec) : Vec :=
  k.normalise x weight.data.toList bias.data.toList h.epsilon

/-- The query, key and value rows of a hidden state, in one vector. -/
def jointOf (l : Layer) (x : Vec) : Vec :=
  linear k l.qkvWeight (some l.qkvBias) (normalised k h l.attnNormWeight l.attnNormBias x)

def queryOf (l : Layer) (x : Vec) : Vec := (jointOf k h l x).take h.width

def keyOf (l : Layer) (x : Vec) : Vec := ((jointOf k h l x).drop h.width).take h.rowWidth

def valueOf (l : Layer) (x : Vec) : Vec := ((jointOf k h l x).drop h.width).drop h.rowWidth

/-- A hidden state with the result of its attention added. -/
def attended (l : Layer) (x attention : Vec) : Vec :=
  k.add x (linear k l.attnOutWeight (some l.attnOutBias) attention)

/-- A hidden state with the result of the feed-forward block added. -/
def fedForward (l : Layer) (x : Vec) : Vec :=
  k.add x (linear k l.downWeight (some l.downBias)
    (k.gelu (linear k l.upWeight (some l.upBias) (normalised k h l.ffnNormWeight l.ffnNormBias x))))

/-- The logits of a last hidden state. -/
def project (w : Weights) (x : Vec) : Vec :=
  linear k w.head none (normalised k h w.outputNormWeight w.outputNormBias x)

/-- The first hidden state of a token at a position. -/
def embed (w : Weights) (position : Nat) (t : Token) : Vec :=
  List.zipWith (· + ·) (w.tokenEmbedding.rowData t.toInt.toNat) (w.positionEmbedding.rowData position)

/-! ## Steps -/

/-- **One layer on one position**: the layer's rows with its own behind them, and the next hidden state. -/
def stepLayer (position : Nat) (l : Layer) (rows : Vec × Vec) (x : Vec) : (Vec × Vec) × Vec :=
  let keys := rows.1 ++ keyOf k h l x
  let values := rows.2 ++ valueOf k h l x
  ((keys, values), fedForward k h l (attended k l x (attend k h (queryOf k h l x) keys values (position + 1))))

/-- All layers on one position. -/
def stepLayers (position : Nat) : List Layer → List (Vec × Vec) → Vec → List (Vec × Vec) × Vec
  | l :: layers, rows :: history, x =>
    let (rows, x) := stepLayer k h position l rows x
    let (history, x) := stepLayers position layers history x
    (rows :: history, x)
  | _, _, x => ([], x)

/-- **Tokens from a position on.**  The hidden state is that of the last token; the first one is not read. -/
def stepTokens (w : Weights) : Nat → List Token → List (Vec × Vec) × Vec → List (Vec × Vec) × Vec
  | _, [], s => s
  | position, t :: rest, s =>
    stepTokens w (position + 1) rest (stepLayers k h position w.layers s.1 (embed w position t))

variable {k h}

theorem stepTokens_append (w : Weights) : ∀ (ts us : List Token) (position : Nat) (s : List (Vec × Vec) × Vec),
    stepTokens k h w position (ts ++ us) s =
      stepTokens k h w (position + ts.length) us (stepTokens k h w position ts s)
  | [], _, _, _ => rfl
  | t :: ts, us, position, s => by
    have hpos : position + (t :: ts).length = position + 1 + ts.length := by rw [List.length_cons]; omega
    rw [List.cons_append, stepTokens, stepTokens, stepTokens_append w ts us, hpos]

/-- The hidden state before the first token is not read. -/
theorem stepTokens_congr {w : Weights} {position : Nat} {ts : List Token} (hts : ts ≠ []) (history : List (Vec × Vec))
    (x y : Vec) : stepTokens k h w position ts (history, x) = stepTokens k h w position ts (history, y) := by
  cases ts with
  | nil => exact absurd rfl hts
  | cons t ts => rfl

/-! ## Lengths -/

section
variable {l : Layer} {w : Weights} {x : Vec}

@[simp] theorem length_linear (w : Tensor) (bias : Option Tensor) (x : Vec) : (linear k w bias x).length = w.rows := by
  rw [linear, List.length_map, List.length_range]

theorem length_normalised {weight bias : Tensor} (hw : weight.Filled [h.width]) (hb : bias.Filled [h.width])
    (hx : x.length = h.width) : (normalised k h weight bias x).length = h.width := by
  rw [normalised, k.length_normalise, hx, hw.length_vector, hb.length_vector, Nat.min_self, Nat.min_self]

theorem length_jointOf (v : h.Valid) (f : l.Filled h) (x : Vec) : (jointOf k h l x).length = Weights.jointWidth h := by
  rw [jointOf, length_linear, f.qkvWeight.rows_matrix v.width_pos]

theorem length_keyOf (v : h.Valid) (f : l.Filled h) (x : Vec) : (keyOf k h l x).length = h.rowWidth := by
  rw [keyOf, List.length_take, List.length_drop, length_jointOf v f, Weights.jointWidth]
  omega

theorem length_valueOf (v : h.Valid) (f : l.Filled h) (x : Vec) : (valueOf k h l x).length = h.rowWidth := by
  rw [valueOf, List.length_drop, List.length_drop, length_jointOf v f, Weights.jointWidth]
  omega

theorem length_foldl_update {α : Type} (f : α → Single → Single → Single) (row : α → Vec) :
    ∀ (l : List α) (out : Vec), (l.foldl (fun out a => Vec.update (f a) out (row a)) out).length = out.length
  | [], _ => rfl
  | _ :: l, _ => (length_foldl_update f row l _).trans (Vec.length_update _ _ _)

theorem length_weightedValues (h : Hyperparameters) (scores values : Vec) (offset : Nat) :
    (weightedValues h scores values offset).length = h.headWidth :=
  (length_foldl_update (fun (p : Single × Nat) o v => o + p.1 * v)
    (fun p => headRow values h.rowWidth h.headWidth offset p.2) scores.zipIdx _).trans List.length_replicate

theorem length_attend (v : h.Valid) (query keys values : Vec) (n : Nat) :
    (attend k h query keys values n).length = h.width := by
  rw [attend, List.length_flatMap]
  simp only [length_weightedValues]
  rw [List.map_const', List.sum_replicate_nat, List.length_range, v.heads_mul]

theorem length_attended (hx : x.length = h.width) (l : Layer) (attention : Vec) :
    (attended k l x attention).length = h.width := by
  rw [attended, k.length_add, hx]

theorem length_fedForward (hx : x.length = h.width) (l : Layer) : (fedForward k h l x).length = h.width := by
  rw [fedForward, k.length_add, hx]

theorem length_embed (f : w.Filled h) {position : Nat} {t : Token} (hp : position < h.context)
    (ht : t.isBelow h.vocab = true) : (embed w position t).length = h.width := by
  rw [embed, List.length_zipWith, f.tokenEmbedding.length_rowData (Token.index?_of_isBelow ht).2, f.positionEmbedding.length_rowData hp,
    Nat.min_self]

end

end Decoder
end CausalLM
