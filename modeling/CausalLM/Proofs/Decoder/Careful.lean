import CausalLM.Proofs.Cache.Rows
import CausalLM.Proofs.Decoder.Slices
/-!
# Proofs.Decoder.Careful — a pass that reads nothing left over

The careful pass takes the steps of the running one in place.  It has no answer where a slice does not lie in its
buffer, where a check fails, or where a cell is read that nobody has written since the buffers were handed over
(`Careful`).  On buffers of the right sizes it always has one, and from any numbers in these buffers the running pass
has the same (`Careful.exists_runToken`, `Careful.exists_projectLogits`).
-/
namespace CausalLM.Decoder

variable {k : Kernels} {h : Hyperparameters}

/-- A row that passes its checks, written in place. -/
def write? (c : Cache) (layer position : Nat) (key value : Vec) : Option Cache :=
  match c.serve? (.write layer position key value) with
  | some (.ok (), c) => some c
  | _ => none

theorem write?_eq {layers rowWidth capacity layer position : Nat} {c c' : Cache} {key value : Vec}
    (hsize : rowWidth * capacity ≤ Word.max64) (hc : c.Shaped layers rowWidth capacity)
    (hwrite : c.write layer position key value = .ok c') :
    write? c layer position key value = some c' := by
  rw [write?, (hc.serves_write hsize layer position key value).2, Cache.serve, hwrite]
  rfl

/-- **The buffers of a careful pass**, and its cache. -/
structure Desk where
  cache : Cache
  hidden : Cells
  norm : Cells
  joint : Cells
  attention : Cells
  projection : Cells
  feedForward : Cells
  scores : Cells
  logits : Cells

/-- **A step of a careful pass.**  It has no answer where the program fails or where it would read what it must not. -/
abbrev Careful := StateT Desk Option

namespace Careful

def read (f : Desk → Cells) : Careful Vec := do (f (← get)).read?

def normaliseHidden (k : Kernels) (h : Hyperparameters) (weight bias : Tensor) : Careful Unit := do
  let hidden ← read (·.hidden)
  modify fun d => { d with
    norm := Cells.overlay (k.normalise hidden weight.data.toList bias.data.toList h.epsilon) d.norm }

def addProjection (k : Kernels) : Careful Unit := do
  let hidden ← read (·.hidden)
  let projection ← read (·.projection)
  modify fun d => { d with hidden := Cells.overlay (k.add hidden projection) d.hidden }

def attentionBlock (k : Kernels) (h : Hyperparameters) (i position : Nat) (l : Layer) : Careful Unit := do
  normaliseHidden k h l.attnNormWeight l.attnNormBias
  let joint ← linear? k l.qkvWeight (← read (·.norm)) l.qkvBias (← get).joint.length
  modify fun d => { d with joint := .of joint }
  let (query, rest) ← splitAt? (← read (·.joint)) h.width
  let (key, value) ← splitAt? rest h.rowWidth
  let cache ← write? (← get).cache i position key value
  modify fun d => { d with cache }
  let keys ← cache.keys? i (position + 1)
  let values ← cache.values? i (position + 1)
  let front ← slice? (← get).scores 0 (position + 1)
  let (scores, attention) ← attend? k h query keys values front (← get).attention
  modify fun d => { d with scores := d.scores.put 0 scores, attention }
  let projection ← linear? k l.attnOutWeight (← read (·.attention)) l.attnOutBias (← get).projection.length
  modify fun d => { d with projection := .of projection }
  addProjection k

def feedForwardBlock (k : Kernels) (h : Hyperparameters) (l : Layer) : Careful Unit := do
  normaliseHidden k h l.ffnNormWeight l.ffnNormBias
  let up ← linear? k l.upWeight (← read (·.norm)) l.upBias (← get).feedForward.length
  modify fun d => { d with feedForward := .of up }
  let up ← read (·.feedForward)
  modify fun d => { d with feedForward := .overlay (k.gelu up) d.feedForward }
  let projection ← linear? k l.downWeight (← read (·.feedForward)) l.downBias (← get).projection.length
  modify fun d => { d with projection := .of projection }
  addProjection k

def runLayers (k : Kernels) (h : Hyperparameters) (position : Nat) : Nat → List Layer → Careful Unit
  | _, [] => return
  | i, l :: rest => do
    attentionBlock k h i position l
    feedForwardBlock k h l
    runLayers k h position (i + 1) rest

/-- **One token at a position**, carefully. -/
def runToken (k : Kernels) (h : Hyperparameters) (w : Weights) (token : Token) (position : Nat) : Careful Unit := do
  let embedding ← token.index?.bind w.tokenEmbedding.row?
  let place ← w.positionEmbedding.row? position
  modify fun d => { d with hidden := .overlay (List.zipWith (· + ·) embedding place) d.hidden }
  runLayers k h position 0 w.layers

/-- **The logits** of the hidden state, carefully. -/
def projectLogits (k : Kernels) (h : Hyperparameters) (w : Weights) : Careful Unit := do
  normaliseHidden k h w.outputNormWeight w.outputNormBias
  let logits ← linear? k w.head (← read (·.norm)) none (← get).logits.length
  modify fun d => { d with logits := .of logits }

end Careful

/-! ## Blocks -/

/-- **Buffers of the sizes a model needs**, whatever is left in them, and a cache of its shape. -/
structure Desk.Fits (h : Hyperparameters) (d : Desk) : Prop where
  shaped : d.cache.Shaped h.layers h.rowWidth h.context
  hidden : d.hidden.length = h.width
  norm : d.norm.length = h.width
  joint : d.joint.length = Weights.jointWidth h
  attention : d.attention.length = h.width
  projection : d.projection.length = h.width
  feedForward : d.feedForward.length = h.feedForward
  scores : d.scores.length = h.context
  logits : d.logits.length = h.vocab

/-- **A running pass with the same cache**, and with the same numbers in its buffers where the desk has some. -/
structure Desk.Agrees (d : Desk) (p : Pass) : Prop where
  cache : d.cache = p.cache
  hidden : d.hidden.Agrees p.work.hidden
  norm : d.norm.Agrees p.work.norm
  joint : d.joint.Agrees p.work.joint
  attention : d.attention.Agrees p.work.attention
  projection : d.projection.Agrees p.work.projection
  feedForward : d.feedForward.Agrees p.work.feedForward
  scores : d.scores.Agrees p.work.scores
  logits : d.logits.Agrees p.work.logits

/-- **No cell of the buffers is left over**, but for the logits and the scores beyond a position. -/
structure Desk.Settled (position : Nat) (d : Desk) : Prop where
  hidden : d.hidden.Written
  norm : d.norm.Written
  joint : d.joint.Written
  attention : d.attention.Written
  projection : d.projection.Written
  feedForward : d.feedForward.Written
  scores : Cells.Written (d.scores.take (position + 1))

/-- The desk behind the attention block of a layer that has its row in the cache `c`, from a hidden state. -/
def Desk.behindAttention (k : Kernels) (h : Hyperparameters) (l : Layer) (c : Cache) (i position : Nat) (x : Vec)
    (d : Desk) : Desk :=
  { d with
    cache := c
    norm := .of (normalised k h l.attnNormWeight l.attnNormBias x)
    joint := .of (jointOf k h l x)
    scores := .overlay (scoresOfHead k h (queryOf k h l x) (c.keys i (position + 1)) (position + 1) (h.heads - 1))
      d.scores
    attention := .of (attentionIn k h l c i position x)
    projection := .of (linear k l.attnOutWeight (some l.attnOutBias) (attentionIn k h l c i position x))
    hidden := .of (attended k l x (attentionIn k h l c i position x)) }

/-- The desk behind the feed-forward block of a layer, from a hidden state. -/
def Desk.behindFeedForward (k : Kernels) (h : Hyperparameters) (l : Layer) (x : Vec) (d : Desk) : Desk :=
  let up := k.gelu (linear k l.upWeight (some l.upBias) (normalised k h l.ffnNormWeight l.ffnNormBias x))
  { d with
    norm := .of (normalised k h l.ffnNormWeight l.ffnNormBias x)
    feedForward := .of up
    projection := .of (linear k l.downWeight (some l.downBias) up)
    hidden := .of (fedForward k h l x) }

theorem Desk.Fits.sized {d : Desk} {p : Pass} (hd : d.Fits h) (ha : d.Agrees p) : p.work.Sized h :=
  ⟨ha.hidden.length_eq ▸ hd.hidden, ha.norm.length_eq ▸ hd.norm, ha.joint.length_eq ▸ hd.joint,
    ha.attention.length_eq ▸ hd.attention, ha.projection.length_eq ▸ hd.projection,
    ha.feedForward.length_eq ▸ hd.feedForward, ha.scores.length_eq ▸ hd.scores, ha.logits.length_eq ▸ hd.logits⟩

theorem Desk.Fits.length_hidden {d : Desk} {x : Vec} (hd : d.Fits h) (hx : d.hidden = .of x) : x.length = h.width := by
  rw [← hd.hidden, hx, Cells.length_of]

namespace Careful

section
variable {α β : Type} {f : α → Careful β} {d d' : Desk} {a : α}

theorem run_bind {x : Careful α} (hx : x.run d = some (a, d')) : (x >>= f).run d = (f a).run d' := by
  rw [StateT.run_bind, hx]
  rfl

theorem run_lift {y : Option α} (hy : y = some a) : (liftM y : Careful α).run d = some (a, d) := by
  rw [hy]
  rfl

theorem run_read {g : Desk → Cells} {v : Vec} (hd : g d = .of v) : (read g).run d = some (v, d) := by
  have hget : (get : Careful Desk).run d = some (d, d) := rfl
  exact (run_bind hget).trans (run_lift (by rw [hd, Cells.read?_of]))

end

variable {l : Layer} {d : Desk} {x y : Vec} {i position : Nat}

theorem run_normaliseHidden {weight bias : Tensor} (hw : weight.Filled [h.width]) (hb : bias.Filled [h.width])
    (hd : d.Fits h) (hx : d.hidden = .of x) : (normaliseHidden k h weight bias).run d =
      some ((), { d with norm := .of (normalised k h weight bias x) }) := by
  have hlen := hd.length_hidden hx
  refine (run_bind (run_read hx)).trans ?_
  rw [← Cells.overlay_of_length ((length_normalised (k := k) hw hb hlen).trans hd.norm.symm)]
  rfl

theorem run_addProjection (hx : d.hidden = .of x) (hy : d.projection = .of y) :
    (addProjection k).run d = some ((), { d with hidden := .of (k.add x y) }) := by
  have hover : Cells.overlay (k.add x y) d.hidden = .of (k.add x y) :=
    Cells.overlay_of_length (by rw [hx, k.length_add, Cells.length_of])
  refine (run_bind (run_read hx)).trans ?_
  refine (run_bind (run_read hy)).trans ?_
  rw [← hover]
  rfl

theorem run_attentionBlock (v : h.Valid) (f : l.Filled h) (hd : d.Fits h) (hi : i < h.layers)
    (hp : position < h.context) (hx : d.hidden = .of x) {c : Cache}
    (hwrite : d.cache.write i position (keyOf k h l x) (valueOf k h l x) = .ok c)
    (hc : c.Shaped h.layers h.rowWidth h.context) :
    (attentionBlock k h i position l).run d = some ((), d.behindAttention k h l c i position x) := by
  have hlen := hd.length_hidden hx
  have hnorm := length_normalised (k := k) f.attnNormWeight f.attnNormBias hlen
  have hjoint : linear? k l.qkvWeight (normalised k h l.attnNormWeight l.attnNormBias x) l.qkvBias d.joint.length =
      some (jointOf k h l x) :=
    linear?_eq f.qkvWeight v.width_pos (fun b hb => by cases hb; exact f.qkvBias) hnorm hd.joint
  have hwidth := length_jointOf (k := k) v f x
  have hquery : splitAt? (jointOf k h l x) h.width = some (queryOf k h l x, (jointOf k h l x).drop h.width) :=
    splitAt?_eq (by rw [hwidth, Weights.jointWidth]; omega)
  have hrest : splitAt? ((jointOf k h l x).drop h.width) h.rowWidth = some (keyOf k h l x, valueOf k h l x) :=
    splitAt?_eq (by rw [List.length_drop, hwidth, Weights.jointWidth]; omega)
  have hfront : slice? d.scores 0 (position + 1) = some (d.scores.take (position + 1)) := by
    have hslice : slice? d.scores 0 (0 + (position + 1)) = _ := slice?_eq (by rw [hd.scores]; omega)
    rwa [Nat.zero_add, List.drop_zero] at hslice
  have hattend : attend? k h (queryOf k h l x) (c.keys i (position + 1)) (c.values i (position + 1))
      (d.scores.take (position + 1)) d.attention = _ :=
    attend?_eq v (by rw [queryOf, List.length_take, hwidth, Weights.jointWidth]; omega) (hc.length_keys hi hp)
      (hc.length_values hi hp) (by rw [List.length_take, hd.scores]; omega) hd.attention
  have hout : linear? k l.attnOutWeight (attentionIn k h l c i position x) l.attnOutBias d.projection.length = _ :=
    linear?_eq f.attnOutWeight v.width_pos (fun b hb => by cases hb; exact f.attnOutBias)
      (length_attend v _ _ _ _) hd.projection
  have hscores : d.scores.put 0 (.of (scoresOfHead k h (queryOf k h l x) (c.keys i (position + 1)) (position + 1)
      (h.heads - 1))) = _ := Cells.put_zero_of (by rw [length_scoresOfHead, hd.scores]; omega)
  rw [Desk.behindAttention, ← hscores]
  -- every buffer that is read from here on was written in one of the steps before
  refine (run_bind (run_normaliseHidden f.attnNormWeight f.attnNormBias hd hx)).trans ?_
  refine (run_bind (run_read rfl)).trans ?_
  refine (run_bind rfl).trans ?_
  refine (run_bind (run_lift hjoint)).trans ?_
  refine (run_bind rfl).trans ?_
  refine (run_bind (run_read rfl)).trans ?_
  refine (run_bind (run_lift hquery)).trans ?_
  refine (run_bind (run_lift hrest)).trans ?_
  refine (run_bind rfl).trans ?_
  refine (run_bind (run_lift (write?_eq v.layer_small hd.shaped hwrite))).trans ?_
  refine (run_bind rfl).trans ?_
  refine (run_bind (run_lift (hc.keys?_eq v.layer_small hi hp))).trans ?_
  refine (run_bind (run_lift (hc.values?_eq v.layer_small hi hp))).trans ?_
  refine (run_bind rfl).trans ?_
  refine (run_bind (run_lift hfront)).trans ?_
  refine (run_bind rfl).trans ?_
  refine (run_bind (run_lift hattend)).trans ?_
  refine (run_bind rfl).trans ?_
  refine (run_bind (run_read rfl)).trans ?_
  refine (run_bind rfl).trans ?_
  refine (run_bind (run_lift hout)).trans ?_
  refine (run_bind rfl).trans ?_
  exact run_addProjection hx rfl

theorem run_feedForwardBlock (v : h.Valid) (f : l.Filled h) (hd : d.Fits h) (hx : d.hidden = .of x) :
    (feedForwardBlock k h l).run d = some ((), d.behindFeedForward k h l x) := by
  have hlen := hd.length_hidden hx
  have hup : linear? k l.upWeight (normalised k h l.ffnNormWeight l.ffnNormBias x) l.upBias d.feedForward.length = _ :=
    linear?_eq f.upWeight v.width_pos (fun b hb => by cases hb; exact f.upBias)
      (length_normalised f.ffnNormWeight f.ffnNormBias hlen) hd.feedForward
  have hover : ∀ up : Vec, Cells.overlay (k.gelu up) (.of up) = .of (k.gelu up) := fun up =>
    Cells.overlay_of_length (by rw [k.length_gelu, Cells.length_of])
  have hdown : linear? k l.downWeight (k.gelu (linear k l.upWeight (some l.upBias)
      (normalised k h l.ffnNormWeight l.ffnNormBias x))) l.downBias d.projection.length = _ :=
    linear?_eq f.downWeight v.feedForward_pos (fun b hb => by cases hb; exact f.downBias)
      (length_gelu_linear v f _) hd.projection
  rw [Desk.behindFeedForward, ← hover]
  refine (run_bind (run_normaliseHidden f.ffnNormWeight f.ffnNormBias hd hx)).trans ?_
  refine (run_bind (run_read rfl)).trans ?_
  refine (run_bind rfl).trans ?_
  refine (run_bind (run_lift hup)).trans ?_
  refine (run_bind rfl).trans ?_
  refine (run_bind (run_read rfl)).trans ?_
  refine (run_bind rfl).trans ?_
  refine (run_bind (run_read (hover _))).trans ?_
  refine (run_bind rfl).trans ?_
  refine (run_bind (run_lift hdown)).trans ?_
  refine (run_bind rfl).trans ?_
  exact run_addProjection hx rfl

/-! ## The running pass does the same -/

/-- **A step of a careful pass has an answer, and the running pass has the same one**: from any buffers that hold what
the desk holds, it succeeds and leaves what the desk then holds. -/
structure Leads (h : Hyperparameters) (x : Careful Unit) (y : Forward Unit) (d d' : Desk) : Prop where
  run_eq : x.run d = some ((), d')
  fits : d'.Fits h
  agrees : ∀ p, d.Agrees p → ∃ p', y.run.run p = (.ok (), p') ∧ d'.Agrees p'

theorem Leads.bind {x x' : Careful Unit} {y y' : Forward Unit} {d d' d'' : Desk} (hx : Leads h x y d d')
    (hx' : Leads h x' y' d' d'') : Leads h (x >>= fun _ => x') (y >>= fun _ => y') d d'' where
  run_eq := (run_bind hx.run_eq).trans hx'.run_eq
  fits := hx'.fits
  agrees p hp := by
    obtain ⟨p', hrun, hp'⟩ := hx.agrees p hp
    obtain ⟨p'', hrun', hp''⟩ := hx'.agrees p' hp'
    exact ⟨p'', (Forward.run_bind hrun).trans hrun', hp''⟩

theorem leads_attentionBlock (v : h.Valid) (f : l.Filled h) (hd : d.Fits h) (hi : i < h.layers)
    (hp : position < h.context) (hx : d.hidden = .of x) {c : Cache}
    (hwrite : d.cache.write i position (keyOf k h l x) (valueOf k h l x) = .ok c)
    (hc : c.Shaped h.layers h.rowWidth h.context) :
    Leads h (attentionBlock k h i position l) (Decoder.attentionBlock k h i position l) d
      (d.behindAttention k h l c i position x) where
  run_eq := run_attentionBlock v f hd hi hp hx hwrite hc
  fits := by
    have hlen := hd.length_hidden hx
    refine ⟨hc, ?_, ?_, ?_, ?_, ?_, hd.feedForward, ?_, hd.logits⟩
    · exact (Cells.length_of _).trans (length_attended hlen l _)
    · exact (Cells.length_of _).trans (length_normalised f.attnNormWeight f.attnNormBias hlen)
    · exact (Cells.length_of _).trans (length_jointOf v f x)
    · exact (Cells.length_of _).trans (length_attend v _ _ _ _)
    · exact (Cells.length_of _).trans ((length_linear _ _ _).trans (f.attnOutWeight.rows_matrix v.width_pos))
    · exact (Cells.length_overlay _ _).trans hd.scores
  agrees p hp := by
    obtain rfl : p.work.hidden = x := Cells.Agrees.eq_of (hx ▸ hp.hidden)
    exact ⟨_, Decoder.run_attentionBlock v f (hd.sized hp) (hp.cache ▸ hwrite),
      ⟨rfl, Cells.agrees_of _, Cells.agrees_of _, Cells.agrees_of _, Cells.agrees_of _, Cells.agrees_of _,
        hp.feedForward, hp.scores.overlay _, hp.logits⟩⟩

theorem leads_feedForwardBlock (v : h.Valid) (f : l.Filled h) (hd : d.Fits h) (hx : d.hidden = .of x) :
    Leads h (feedForwardBlock k h l) (Decoder.feedForwardBlock k h l) d (d.behindFeedForward k h l x) where
  run_eq := run_feedForwardBlock v f hd hx
  fits := by
    have hlen := hd.length_hidden hx
    refine ⟨hd.shaped, ?_, ?_, hd.joint, hd.attention, ?_, ?_, hd.scores, hd.logits⟩
    · exact (Cells.length_of _).trans (length_fedForward hlen l)
    · exact (Cells.length_of _).trans (length_normalised f.ffnNormWeight f.ffnNormBias hlen)
    · exact (Cells.length_of _).trans ((length_linear _ _ _).trans (f.downWeight.rows_matrix v.feedForward_pos))
    · exact (Cells.length_of _).trans (length_gelu_linear v f _)
  agrees p hp := by
    obtain rfl : p.work.hidden = x := Cells.Agrees.eq_of (hx ▸ hp.hidden)
    refine ⟨_, Decoder.run_feedForwardBlock v f (hd.sized hp), ?_⟩
    exact ⟨hp.cache, Cells.agrees_of _, Cells.agrees_of _, hp.joint, hp.attention, Cells.agrees_of _,
      Cells.agrees_of _, hp.scores, hp.logits⟩

/-- **One layer writes all buffers** but that of the logits, and as many scores as there are positions. -/
theorem exists_layer (v : h.Valid) (f : l.Filled h) (hd : d.Fits h) (hi : i < h.layers) (hp : position < h.context)
    (hx : d.hidden.Written) : ∃ d₁ d',
      Leads h (attentionBlock k h i position l) (Decoder.attentionBlock k h i position l) d d₁ ∧
      Leads h (feedForwardBlock k h l) (Decoder.feedForwardBlock k h l) d₁ d' ∧ d'.Settled position := by
  obtain ⟨x, hx⟩ := Cells.written_iff.1 hx
  obtain ⟨c, hwrite, hc, -⟩ := Cache.exists_write hd.shaped hi hp (length_keyOf (k := k) v f x)
    (length_valueOf (k := k) v f x)
  have hattention := leads_attentionBlock v f hd hi hp hx hwrite hc
  refine ⟨_, _, hattention, leads_feedForwardBlock v f hattention.fits rfl, ?_⟩
  refine ⟨Cells.written_of _, Cells.written_of _, Cells.written_of _, Cells.written_of _, Cells.written_of _,
    Cells.written_of _, ?_⟩
  have hscores : (scoresOfHead k h (queryOf k h l x) (c.keys i (position + 1)) (position + 1) (h.heads - 1)).length =
    position + 1 := length_scoresOfHead _ _ _ _
  have hfront := Cells.take_overlay (hscores.trans_le (hp.trans_eq hd.scores.symm))
  rw [hscores] at hfront
  exact hfront ▸ Cells.written_of _

theorem exists_runLayers (v : h.Valid) (hp : position < h.context) : ∀ (ls : List Layer) (i : Nat) {d : Desk},
    (∀ l ∈ ls, l.Filled h) → i + ls.length ≤ h.layers → d.Fits h → d.hidden.Written →
    (ls = [] → d.Settled position) →
    ∃ d', Leads h (runLayers k h position i ls) (Decoder.runLayers k h position i ls) d d' ∧ d'.Settled position
  | [], i, d, _, _, hd, _, hsettled => ⟨d, ⟨rfl, hd, fun p hp => ⟨p, rfl, hp⟩⟩, hsettled rfl⟩
  | l :: ls, i, d, hf, hi, hd, hx, _ => by
    obtain ⟨hl, hls⟩ := List.forall_mem_cons.1 hf
    rw [List.length_cons] at hi
    obtain ⟨d₁, d₂, hattention, hfeed, hsettled⟩ := exists_layer (k := k) v hl hd (show i < h.layers by omega) hp hx
    obtain ⟨d', hrest, hsettled'⟩ := exists_runLayers v hp ls (i + 1) hls (by omega) hfeed.fits hsettled.hidden
      fun _ => hsettled
    exact ⟨d', hattention.bind (hfeed.bind hrest), hsettled'⟩

section
variable {w : Weights} {t : Token}

/-- **One careful token**, whatever the tokens before it left in the buffers. -/
theorem exists_runToken (v : h.Valid) (f : w.Filled h) (hd : d.Fits h) (ht : t.isBelow h.vocab = true)
    (hp : position < h.context) :
    ∃ d', Leads h (runToken k h w t position) (Decoder.runToken k h w t position) d d' ∧ d'.Settled position := by
  obtain ⟨hindex, hlt⟩ := Token.index?_of_isBelow ht
  have hembedding : t.index?.bind w.tokenEmbedding.row? = some (w.tokenEmbedding.rowData t.toInt.toNat) := by
    rw [hindex]
    exact f.tokenEmbedding.row?_eq v.width_pos hlt
  have hplace : w.positionEmbedding.row? position = some (w.positionEmbedding.rowData position) :=
    f.positionEmbedding.row?_eq v.width_pos hp
  have hover : Cells.overlay (embed w position t) d.hidden = .of (embed w position t) :=
    Cells.overlay_of_length ((length_embed f hp ht).trans hd.hidden.symm)
  have hfits : Desk.Fits h { d with hidden := .of (embed w position t) } :=
    ⟨hd.shaped, (Cells.length_of _).trans (length_embed f hp ht), hd.norm, hd.joint, hd.attention, hd.projection,
      hd.feedForward, hd.scores, hd.logits⟩
  have hlayers : w.layers ≠ [] := by
    rw [← List.length_pos_iff, f.length_layers]
    exact v.layers_pos
  obtain ⟨d', hrest, hsettled⟩ := exists_runLayers (k := k) v hp w.layers 0 f.layers
    (by rw [f.length_layers]; omega) hfits (Cells.written_of _) fun hnil => absurd hnil hlayers
  refine ⟨d', ⟨?_, hrest.fits, fun p ha => ?_⟩, hsettled⟩
  · refine (run_bind (run_lift hembedding)).trans ?_
    refine (run_bind (run_lift hplace)).trans ?_
    refine (run_bind rfl).trans ?_
    change (runLayers k h position 0 w.layers).run
      { d with hidden := .overlay (embed w position t) d.hidden } = _
    rw [hover, hrest.run_eq]
  · rw [Decoder.run_runToken v f (hd.sized ha) ht hp]
    exact hrest.agrees _ ⟨ha.cache, Cells.agrees_of _, ha.norm, ha.joint, ha.attention, ha.projection, ha.feedForward,
      ha.scores, ha.logits⟩

/-- **Careful logits**, from a hidden state of which nothing is left over. -/
theorem exists_projectLogits (v : h.Valid) (f : w.Filled h) (hd : d.Fits h) (hx : d.hidden.Written) :
    ∃ d', Leads h (projectLogits k h w) (Decoder.projectLogits k h w) d d' ∧ d'.logits.Written := by
  obtain ⟨x, hx⟩ := Cells.written_iff.1 hx
  have hlen := hd.length_hidden hx
  have hnorm := length_normalised (k := k) f.outputNormWeight f.outputNormBias hlen
  have happly : linear? k w.head (normalised k h w.outputNormWeight w.outputNormBias x) none d.logits.length =
      some (project k h w x) := linear?_eq f.head v.width_pos (fun b hb => by cases hb) hnorm hd.logits
  refine ⟨{ d with norm := .of (normalised k h w.outputNormWeight w.outputNormBias x), logits := .of (project k h w x) },
    ⟨?_, ?_, fun p ha => ?_⟩, Cells.written_of _⟩
  · refine (run_bind (run_normaliseHidden f.outputNormWeight f.outputNormBias hd hx)).trans ?_
    refine (run_bind (run_read rfl)).trans ?_
    refine (run_bind rfl).trans ?_
    refine (run_bind (run_lift happly)).trans ?_
    rfl
  · exact ⟨hd.shaped, hd.hidden, (Cells.length_of _).trans hnorm, hd.joint, hd.attention, hd.projection,
      hd.feedForward, hd.scores,
      (Cells.length_of _).trans ((length_linear _ _ _).trans (f.head.rows_matrix v.width_pos))⟩
  · obtain rfl : p.work.hidden = x := Cells.Agrees.eq_of (hx ▸ ha.hidden)
    exact ⟨_, Decoder.run_projectLogits v f (hd.sized ha), ⟨ha.cache, ha.hidden, Cells.agrees_of _, ha.joint,
      ha.attention, ha.projection, ha.feedForward, ha.scores, Cells.agrees_of _⟩⟩

end

end Careful

end CausalLM.Decoder
