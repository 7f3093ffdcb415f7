import CausalLM.Proofs.Cache
import CausalLM.Proofs.Decoder.Step
/-!
# Proofs.Decoder.Pass — a running pass is a step of histories

The running pass works in a cache and in buffers that hold what the token before left in them.  From buffers of the
right sizes it never fails, and what it leaves in the cache and as the hidden state is the step of the history
(`exists_runTokens`).
-/
namespace CausalLM.Decoder

variable {k : Kernels} {h : Hyperparameters}

/-- **Buffers of the sizes a model needs.** -/
structure Workspace.Sized (h : Hyperparameters) (w : Workspace) : Prop where
  hidden : w.hidden.length = h.width
  norm : w.norm.length = h.width
  joint : w.joint.length = Weights.jointWidth h
  attention : w.attention.length = h.width
  projection : w.projection.length = h.width
  feedForward : w.feedForward.length = h.feedForward
  scores : w.scores.length = h.context
  logits : w.logits.length = h.vocab

theorem Workspace.sized_new {w : Workspace} (hok : Workspace.new h = .ok w) : w.Sized h := by
  simp only [Workspace.new, bind_eq_ok_iff] at hok
  obtain ⟨hidden, h₁, norm, h₂, joint, h₃, attention, h₄, projection, h₅, feedForward, h₆, scores, h₇, logits, h₈,
    hok⟩ := hok
  cases hok
  have hlen : ∀ {n : Nat} {v : Vec}, Memory.zeros n = .ok v → v.length = n := fun hv => by
    rw [Memory.zeros_eq_ok hv, List.length_replicate]
  exact ⟨hlen h₁, hlen h₂, hlen h₃, hlen h₄, hlen h₅, hlen h₆, hlen h₇, hlen h₈⟩

/-! ## Steps in sequence -/

namespace Forward

variable {α β : Type} {x : Forward α} {f : α → Forward β} {p p' : Pass}

/-- A step that succeeds hands its result and its buffers to the next. -/
theorem run_bind {a : α} (hx : x.run.run p = (.ok a, p')) : (x >>= f).run.run p = (f a).run.run p' := by
  rw [ExceptT.run_bind, StateT.run_bind, hx]
  rfl

theorem run_lift {y : Except Error α} {a : α} (hy : y = .ok a) : (liftM y : Forward α).run.run p = (.ok a, p) := by
  rw [hy]
  rfl

theorem run_modifyWork (g : Workspace → Workspace) :
    (modifyWork g).run.run p = (.ok (), { p with work := g p.work }) := rfl

theorem run_getWork : getWork.run.run p = (.ok p.work, p) := rfl

end Forward

/-- **A linear map of the right shape succeeds**, whatever the bias. -/
theorem apply_eq_linear {w : Tensor} {bias : Option Tensor} {x : Vec} {m n size : Nat} (hw : w.Filled [n, m])
    (hn : 0 < n) (hb : ∀ b ∈ bias, b.Filled [m]) (hx : x.length = n) (hsize : size = m) :
    w.apply k x bias size = .ok (linear k w bias x) := by
  unfold Tensor.apply
  simp only
  rw [hw.rows_matrix hn, hw.rowLength_matrix, if_neg (by omega), linear, hw.rows_matrix hn]
  cases bias with
  | none => rfl
  | some b =>
    simp only
    rw [if_neg (fun hne => hne (hb b rfl).elements_vector)]
    rfl

/-! ## Blocks -/

section
variable {l : Layer} {p : Pass} {i position : Nat}

theorem run_normaliseHidden {weight bias : Tensor} (hw : weight.Filled [h.width]) (hb : bias.Filled [h.width])
    (hs : p.work.Sized h) : (normaliseHidden k h weight bias).run.run p =
      (.ok (), { p with work := { p.work with norm := normalised k h weight bias p.work.hidden } }) := by
  have hlen := length_normalised (k := k) hw hb hs.hidden
  have hover : Vec.overlay (normalised k h weight bias p.work.hidden) p.work.norm =
      normalised k h weight bias p.work.hidden := Vec.overlay_eq_of_length_eq (hlen.trans hs.norm.symm)
  rw [normaliseHidden, Forward.run_modifyWork, ← hover]
  rfl

/-- The attention of a hidden state over the rows that a layer has in a cache, its own the last. -/
def attentionIn (k : Kernels) (h : Hyperparameters) (l : Layer) (c : Cache) (i position : Nat) (x : Vec) : Vec :=
  attend k h (queryOf k h l x) (c.keys i (position + 1)) (c.values i (position + 1)) (position + 1)

/-- The scores of the last head, over whatever scores were there. -/
def lastScores (k : Kernels) (h : Hyperparameters) (l : Layer) (c : Cache) (i position : Nat) (w : Workspace) : Vec :=
  Vec.overlay (scoresOfHead k h (queryOf k h l w.hidden) (c.keys i (position + 1)) (position + 1) (h.heads - 1)) w.scores

/-- The buffers behind the attention block of a layer, from the last scores and the attention of all heads. -/
def Workspace.behindAttention (k : Kernels) (h : Hyperparameters) (l : Layer) (scores attention : Vec)
    (w : Workspace) : Workspace :=
  { w with
    norm := normalised k h l.attnNormWeight l.attnNormBias w.hidden
    joint := jointOf k h l w.hidden
    scores
    attention
    projection := linear k l.attnOutWeight (some l.attnOutBias) attention
    hidden := attended k l w.hidden attention }

/-- The buffers behind the feed-forward block of a layer. -/
def Workspace.behindFeedForward (k : Kernels) (h : Hyperparameters) (l : Layer) (w : Workspace) : Workspace :=
  let up := k.gelu (linear k l.upWeight (some l.upBias) (normalised k h l.ffnNormWeight l.ffnNormBias w.hidden))
  { w with
    norm := normalised k h l.ffnNormWeight l.ffnNormBias w.hidden
    feedForward := up
    projection := linear k l.downWeight (some l.downBias) up
    hidden := fedForward k h l w.hidden }

theorem Workspace.Sized.behindAttention {w : Workspace} (v : h.Valid) (f : l.Filled h) (hs : w.Sized h)
    {scores attention : Vec} (hscores : scores.length = h.context) (hattention : attention.length = h.width) :
    (w.behindAttention k h l scores attention).Sized h :=
  ⟨length_attended hs.hidden l _, length_normalised f.attnNormWeight f.attnNormBias hs.hidden, length_jointOf v f _,
    hattention, (length_linear _ _ _).trans (f.attnOutWeight.rows_matrix v.width_pos), hs.feedForward, hscores,
    hs.logits⟩

theorem length_gelu_linear (v : h.Valid) (f : l.Filled h) (x : Vec) :
    (k.gelu (linear k l.upWeight (some l.upBias) x)).length = h.feedForward := by
  rw [k.length_gelu, length_linear, f.upWeight.rows_matrix v.width_pos]

theorem Workspace.Sized.behindFeedForward {w : Workspace} (v : h.Valid) (f : l.Filled h) (hs : w.Sized h) :
    (w.behindFeedForward k h l).Sized h :=
  ⟨length_fedForward hs.hidden l, length_normalised f.ffnNormWeight f.ffnNormBias hs.hidden, hs.joint, hs.attention,
    (length_linear _ _ _).trans (f.downWeight.rows_matrix v.feedForward_pos), length_gelu_linear v f _, hs.scores,
    hs.logits⟩

theorem run_attentionBlock (v : h.Valid) (f : l.Filled h) (hs : p.work.Sized h) {c : Cache}
    (hwrite : p.cache.write i position (keyOf k h l p.work.hidden) (valueOf k h l p.work.hidden) = .ok c) :
    (attentionBlock k h i position l).run.run p = (.ok (), ⟨c, p.work.behindAttention k h l
      (lastScores k h l c i position p.work) (attentionIn k h l c i position p.work.hidden)⟩) := by
  have hnorm := length_normalised (k := k) f.attnNormWeight f.attnNormBias hs.hidden
  have hjoint : l.qkvWeight.apply k (normalised k h l.attnNormWeight l.attnNormBias p.work.hidden) l.qkvBias
      p.work.joint.length = .ok (jointOf k h l p.work.hidden) :=
    apply_eq_linear f.qkvWeight v.width_pos (fun b hb => by cases hb; exact f.qkvBias) hnorm hs.joint
  have hlen : (attentionIn k h l c i position p.work.hidden).length = h.width := length_attend v _ _ _ _
  -- the buffer for the attention is zeroed first and filled whole, so nothing of the token before shows
  have hover : Vec.overlay (attentionIn k h l c i position p.work.hidden)
      (List.replicate p.work.attention.length .zero) = attentionIn k h l c i position p.work.hidden :=
    Vec.overlay_eq_of_length_eq (by rw [hlen, List.length_replicate, hs.attention])
  have hout : l.attnOutWeight.apply k (Vec.overlay (attentionIn k h l c i position p.work.hidden)
      (List.replicate p.work.attention.length .zero)) l.attnOutBias p.work.projection.length = _ :=
    apply_eq_linear f.attnOutWeight v.width_pos (fun b hb => by cases hb; exact f.attnOutBias)
      (by rw [hover, hlen]) hs.projection
  have hrun : (attentionBlock k h i position l).run.run p = (.ok (), ⟨c, p.work.behindAttention k h l
      (lastScores k h l c i position p.work) (Vec.overlay (attentionIn k h l c i position p.work.hidden)
        (List.replicate p.work.attention.length .zero))⟩) := by
    refine (Forward.run_bind (run_normaliseHidden f.attnNormWeight f.attnNormBias hs)).trans ?_
    refine (Forward.run_bind Forward.run_getWork).trans ?_
    refine (Forward.run_bind (Forward.run_lift hjoint)).trans ?_
    refine (Forward.run_bind (Forward.run_modifyWork _)).trans ?_
    refine (Forward.run_bind rfl).trans ?_
    refine (Forward.run_bind (Forward.run_lift hwrite)).trans ?_
    refine (Forward.run_bind rfl).trans ?_
    refine (Forward.run_bind (Forward.run_modifyWork _)).trans ?_
    refine (Forward.run_bind Forward.run_getWork).trans ?_
    refine (Forward.run_bind (Forward.run_lift hout)).trans ?_
    rfl
  rwa [hover] at hrun

theorem run_feedForwardBlock (v : h.Valid) (f : l.Filled h) (hs : p.work.Sized h) :
    (feedForwardBlock k h l).run.run p = (.ok (), ⟨p.cache, p.work.behindFeedForward k h l⟩) := by
  have hnorm := length_normalised (k := k) f.ffnNormWeight f.ffnNormBias hs.hidden
  have hup : l.upWeight.apply k (normalised k h l.ffnNormWeight l.ffnNormBias p.work.hidden) l.upBias
      p.work.feedForward.length = _ :=
    apply_eq_linear f.upWeight v.width_pos (fun b hb => by cases hb; exact f.upBias) hnorm hs.feedForward
  have hdown : l.downWeight.apply k (k.gelu (linear k l.upWeight (some l.upBias)
      (normalised k h l.ffnNormWeight l.ffnNormBias p.work.hidden))) l.downBias p.work.projection.length = _ :=
    apply_eq_linear f.downWeight v.feedForward_pos (fun b hb => by cases hb; exact f.downBias)
      (length_gelu_linear v f _) hs.projection
  refine (Forward.run_bind (run_normaliseHidden f.ffnNormWeight f.ffnNormBias hs)).trans ?_
  refine (Forward.run_bind Forward.run_getWork).trans ?_
  refine (Forward.run_bind (Forward.run_lift hup)).trans ?_
  refine (Forward.run_bind (Forward.run_modifyWork _)).trans ?_
  refine (Forward.run_bind Forward.run_getWork).trans ?_
  refine (Forward.run_bind (Forward.run_lift hdown)).trans ?_
  rfl

/-- **The attention block**: key and value of the hidden state go into the cache, and the attention over all rows of
the layer up to them is added to it. -/
theorem exists_attentionBlock (v : h.Valid) (f : l.Filled h) (hc : p.cache.Shaped h.layers h.rowWidth h.context)
    (hs : p.work.Sized h) (hi : i < h.layers) (hp : position < h.context) :
    ∃ p', (attentionBlock k h i position l).run.run p = (.ok (), p') ∧
      p'.cache.Shaped h.layers h.rowWidth h.context ∧ p'.work.Sized h ∧
      p.cache.Wrote i position (keyOf k h l p.work.hidden) (valueOf k h l p.work.hidden) p'.cache ∧
      p'.work.hidden = attended k l p.work.hidden (attentionIn k h l p'.cache i position p.work.hidden) := by
  obtain ⟨c, hwrite, hc', hwrote⟩ := Cache.exists_write hc hi hp (length_keyOf (k := k) v f p.work.hidden)
    (length_valueOf (k := k) v f p.work.hidden)
  exact ⟨_, run_attentionBlock v f hs hwrite, hc', hs.behindAttention v f ((Vec.length_overlay _ _).trans hs.scores)
    (length_attend v _ _ _ _), hwrote, rfl⟩

/-- **The feed-forward block** leaves the cache alone. -/
theorem exists_feedForwardBlock (v : h.Valid) (f : l.Filled h) (hs : p.work.Sized h) :
    ∃ w', (feedForwardBlock k h l).run.run p = (.ok (), ⟨p.cache, w'⟩) ∧ w'.Sized h ∧
      w'.hidden = fedForward k h l p.work.hidden :=
  ⟨_, run_feedForwardBlock v f hs, hs.behindFeedForward v f, rfl⟩

end

/-! ## Layers and tokens -/

/-- What a pass through some layers from layer `i` on leaves behind: the rows of these layers with those of one more
position, the rows of the layers before, and the hidden state. -/
structure Ran (k : Kernels) (h : Hyperparameters) (position i : Nat) (ls : List Layer) (p p' : Pass) : Prop where
  shaped : p'.cache.Shaped h.layers h.rowWidth h.context
  sized : p'.work.Sized h
  length_eq : p'.cache.length = p.cache.length
  keys_eq : ∀ j < i, ∀ n, p'.cache.keys j n = p.cache.keys j n
  values_eq : ∀ j < i, ∀ n, p'.cache.values j n = p.cache.values j n
  step_eq : stepLayers k h position ls (p.cache.rowsFrom position i ls.length) p.work.hidden =
    (p'.cache.rowsFrom (position + 1) i ls.length, p'.work.hidden)

theorem exists_runLayers (v : h.Valid) {position : Nat} (hp : position < h.context) :
    ∀ (ls : List Layer) (i : Nat) {p : Pass}, (∀ l ∈ ls, l.Filled h) → i + ls.length ≤ h.layers →
    p.cache.Shaped h.layers h.rowWidth h.context → p.work.Sized h →
    ∃ p', (runLayers k h position i ls).run.run p = (.ok (), p') ∧ Ran k h position i ls p p'
  | [], i, p, _, _, hc, hs => ⟨p, rfl, hc, hs, rfl, fun _ _ _ => rfl, fun _ _ _ => rfl, rfl⟩
  | l :: ls, i, p, hf, hi, hc, hs => by
    obtain ⟨hl, hls⟩ := List.forall_mem_cons.1 hf
    rw [List.length_cons] at hi
    obtain ⟨p₁, hrun₁, hc₁, hs₁, hwrote, hhidden₁⟩ := exists_attentionBlock (k := k) v hl hc hs
      (show i < h.layers by omega) hp
    obtain ⟨w₂, hrun₂, hs₂, hhidden₂⟩ := exists_feedForwardBlock (k := k) v hl hs₁
    obtain ⟨p', hrun, hran⟩ := exists_runLayers v hp ls (i + 1) (p := ⟨p₁.cache, w₂⟩) hls (by omega) hc₁ hs₂
    have hlt : i < i + 1 := Nat.lt_succ_self i
    refine ⟨p', ?_, hran.shaped, hran.sized, hran.length_eq.trans hwrote.length_eq, fun j hj n => ?_,
      fun j hj n => ?_, ?_⟩
    · exact (Forward.run_bind hrun₁).trans ((Forward.run_bind hrun₂).trans hrun)
    · rw [hran.keys_eq j (Nat.lt_succ_of_lt hj), hwrote.keys_ne j (Nat.ne_of_gt hj)]
    · rw [hran.values_eq j (Nat.lt_succ_of_lt hj), hwrote.values_ne j (Nat.ne_of_gt hj)]
    · -- the rows of the layers behind are those before this layer ran
      have hrest : p₁.cache.rowsFrom position (i + 1) ls.length = p.cache.rowsFrom position (i + 1) ls.length :=
        Cache.rowsFrom_congr (fun j hj => hwrote.keys_ne j (by omega) _) (fun j hj => hwrote.values_ne j (by omega) _)
      have hstep := hran.step_eq
      simp only [hrest, hhidden₂, hhidden₁, attentionIn, hwrote.keys_self, hwrote.values_self] at hstep
      rw [List.length_cons, Cache.rowsFrom_succ, Cache.rowsFrom_succ, hran.keys_eq i hlt, hran.values_eq i hlt,
        hwrote.keys_self, hwrote.values_self]
      simp only [stepLayers, stepLayer, hstep]

section
variable {w : Weights} {p : Pass} {position : Nat}

/-- A token is its embedding, taken through the layers. -/
theorem run_runToken (v : h.Valid) (f : w.Filled h) (hs : p.work.Sized h) {t : Token} (ht : t.isBelow h.vocab = true)
    (hp : position < h.context) : (runToken k h w t position).run.run p =
      (runLayers k h position 0 w.layers).run.run ⟨p.cache, { p.work with hidden := embed w position t }⟩ := by
  obtain ⟨hindex, hlt⟩ := Token.index?_of_isBelow ht
  have hembedding : t.index?.bind w.tokenEmbedding.row? = some (w.tokenEmbedding.rowData t.toInt.toNat) := by
    rw [hindex]
    exact f.tokenEmbedding.row?_eq v.width_pos hlt
  have hplace : w.positionEmbedding.row? position = some (w.positionEmbedding.rowData position) :=
    f.positionEmbedding.row?_eq v.width_pos hp
  have hover : Vec.overlay (embed w position t) p.work.hidden = embed w position t :=
    Vec.overlay_eq_of_length_eq ((length_embed f hp ht).trans hs.hidden.symm)
  rw [runToken]
  simp only [hembedding, hplace]
  refine (Forward.run_bind (Forward.run_modifyWork _)).trans ?_
  change (runLayers k h position 0 w.layers).run.run
    ⟨p.cache, { p.work with hidden := Vec.overlay (embed w position t) p.work.hidden }⟩ = _
  rw [hover]

theorem Workspace.Sized.embed (f : w.Filled h) {b : Workspace} (hs : b.Sized h) {t : Token}
    (ht : t.isBelow h.vocab = true) (hp : position < h.context) :
    Workspace.Sized h { b with hidden := Decoder.embed w position t } :=
  ⟨length_embed f hp ht, hs.norm, hs.joint, hs.attention, hs.projection, hs.feedForward, hs.scores, hs.logits⟩

/-- **One token** adds a position to the history. -/
theorem exists_runToken (v : h.Valid) (f : w.Filled h) (hc : p.cache.Shaped h.layers h.rowWidth h.context)
    (hs : p.work.Sized h) {t : Token} (ht : t.isBelow h.vocab = true) (hp : position < h.context) :
    ∃ p', (runToken k h w t position).run.run p = (.ok (), p') ∧
      p'.cache.Shaped h.layers h.rowWidth h.context ∧ p'.work.Sized h ∧ p'.cache.length = p.cache.length ∧
      stepLayers k h position w.layers (p.cache.history position) (embed w position t) =
        (p'.cache.history (position + 1), p'.work.hidden) := by
  obtain ⟨p', hrun, hran⟩ := exists_runLayers (k := k) v hp w.layers 0
    (p := ⟨p.cache, { p.work with hidden := embed w position t }⟩) f.layers (by rw [f.length_layers]; omega) hc
    (hs.embed f ht hp)
  have hstep := hran.step_eq
  rw [f.length_layers] at hstep
  refine ⟨p', (run_runToken v f hs ht hp).trans hrun, hran.shaped, hran.sized, hran.length_eq, ?_⟩
  rw [Cache.history, Cache.history, hc.layerCount_eq, hran.shaped.layerCount_eq, hstep]

/-- **A run of tokens is a step of the history.** -/
theorem exists_runTokens (v : h.Valid) (f : w.Filled h) : ∀ (ts : List Token) (position : Nat) {p : Pass},
    p.cache.Shaped h.layers h.rowWidth h.context → p.work.Sized h → (∀ t ∈ ts, t.isBelow h.vocab = true) →
    position + ts.length ≤ h.context →
    ∃ p', (runTokens k h w position ts).run.run p = (.ok (), p') ∧
      p'.cache.Shaped h.layers h.rowWidth h.context ∧ p'.work.Sized h ∧
      (p'.cache.length = if ts = [] then p.cache.length else position + ts.length) ∧
      stepTokens k h w position ts (p.cache.history position, p.work.hidden) =
        (p'.cache.history (position + ts.length), p'.work.hidden)
  | [], position, p, hc, hs, _, _ => ⟨p, rfl, hc, hs, (if_pos rfl).symm, rfl⟩
  | t :: ts, position, p, hc, hs, hts, hroom => by
    obtain ⟨ht, hts'⟩ := List.forall_mem_cons.1 hts
    rw [List.length_cons] at hroom ⊢
    obtain ⟨p₁, hrun₁, hc₁, hs₁, hlen₁, hstep₁⟩ := exists_runToken (k := k) v f hc hs ht
      (show position < h.context by omega)
    obtain ⟨p', hrun, hc', hs', hlen, hstep⟩ := exists_runTokens v f ts (position + 1)
      (p := ⟨p₁.cache.commit (position + 1), p₁.work⟩) (hc₁.commit _) hs₁ hts' (by omega)
    have hpos : position + 1 + ts.length = position + (ts.length + 1) := by omega
    refine ⟨p', ?_, hc', hs', ?_, ?_⟩
    · exact (Forward.run_bind hrun₁).trans ((Forward.run_bind rfl).trans hrun)
    · rw [if_neg (List.cons_ne_nil t ts), hlen]
      split
      · rename_i hnil
        rw [hnil, Cache.commit, hc₁.capacity_eq]
        exact Nat.min_eq_left (by omega)
      · exact hpos
    · rw [stepTokens, hstep₁, ← hpos]
      exact hstep

/-- The buffers with the logits of their hidden state. -/
def Workspace.projected (k : Kernels) (h : Hyperparameters) (w : Weights) (b : Workspace) : Workspace :=
  { b with
    norm := normalised k h w.outputNormWeight w.outputNormBias b.hidden
    logits := project k h w b.hidden }

theorem run_projectLogits (v : h.Valid) (f : w.Filled h) (hs : p.work.Sized h) :
    (projectLogits k h w).run.run p = (.ok (), ⟨p.cache, p.work.projected k h w⟩) := by
  have hnorm := length_normalised (k := k) f.outputNormWeight f.outputNormBias hs.hidden
  have happly : w.head.apply k (normalised k h w.outputNormWeight w.outputNormBias p.work.hidden) none
      p.work.logits.length = .ok (project k h w p.work.hidden) :=
    apply_eq_linear f.head v.width_pos (fun b hb => by cases hb) hnorm hs.logits
  refine (Forward.run_bind (run_normaliseHidden f.outputNormWeight f.outputNormBias hs)).trans ?_
  refine (Forward.run_bind Forward.run_getWork).trans ?_
  refine (Forward.run_bind (Forward.run_lift happly)).trans ?_
  rfl

/-- **The logits** of the hidden state. -/
theorem exists_projectLogits (v : h.Valid) (f : w.Filled h) (hs : p.work.Sized h) :
    ∃ w', (projectLogits k h w).run.run p = (.ok (), ⟨p.cache, w'⟩) ∧ w'.Sized h ∧
      w'.logits = project k h w p.work.hidden :=
  ⟨_, run_projectLogits v f hs, ⟨hs.hidden, length_normalised f.outputNormWeight f.outputNormBias hs.hidden, hs.joint,
    hs.attention, hs.projection, hs.feedForward, hs.scores,
    (length_linear _ _ _).trans (f.head.rows_matrix v.width_pos)⟩, rfl⟩

end

end CausalLM.Decoder
