import CausalLM.Proofs.Generation.Refusal
import CausalLM.Proofs.Tokenizer.RoundTrip
/-!
# Proofs.Generation.Ingestion — a prompt on top of a history

With a share of the history to drop a prompt goes in piece by piece, and room is made for each of them.  No piece is
longer than a batch, so what decides is whether one fits into the whole context (`ingested_start`).  What stays then is
the end of the history with the prompt behind it; and where all of it fits nothing is dropped, since feeding is
evaluating there (`InLine.feedAll_eq`).
-/
namespace CausalLM

open Decoder (Engine Session Model)

namespace Generation

/-! ## Feeding -/

section

variable {m : Model}

/-- **Where everything fits, feeding is evaluating.** -/
theorem InLine.feedAll_eq : ∀ {pieces : List (List Token)} {r : Run Engine}, InLine m r →
    (∀ piece ∈ pieces, piece ≠ []) → r.context.position + pieces.flatten.length ≤ r.context.capacity →
    (∀ t ∈ pieces.flatten, t.isBelow m.hyperparameters.vocab = true) → r.feedAll pieces = r.evaluateAll pieces
  | [], _, _, _, _, _ => rfl
  | piece :: rest, r, h, hne, hroom, hbelow => by
    rw [List.flatten_cons] at hroom hbelow
    rw [List.length_append] at hroom
    obtain ⟨hpiece, hrest⟩ := List.forall_mem_cons.1 hne
    obtain ⟨hfirst, hothers⟩ := List.forall_mem_append.1 hbelow
    obtain ⟨r', hevaluate, hextends⟩ := h.evaluate hpiece (by omega) hfirst
    have hroom' : r'.context.position + rest.flatten.length ≤ r'.context.capacity := by
      rw [hextends.context_eq]
      change r.context.position + piece.length + _ ≤ r.context.capacity
      omega
    have hfeed : r.feed piece = r.evaluate piece := by rw [Run.feed, if_neg (by omega)]
    rw [Run.feedAll, Run.evaluateAll, hfeed, hevaluate]
    exact InLine.feedAll_eq hextends.inLine hrest hroom' hothers

end

/-! ## Starting -/

section

variable {e : Engine} {s : Session} {c : Context} {o : Options} {prompt : String}

/-- **A batch longer than the context is refused** before anything is evaluated. -/
theorem start_of_long (hsession : e.session = some s) (hvalid : o.validate = .ok ()) (herase : o.erase ≠ none)
    (hlong : s.model.hyperparameters.context < min o.batch (s.model.tokenizer.encode prompt).length) :
    start e c prompt o = .error (.error (.contextOverflow 0 (min o.batch (s.model.tokenizer.encode prompt).length)
      s.model.hyperparameters.context), firstRun e c o) := by
  have hcapacity : Backend.contextLength e = s.model.hyperparameters.context := Engine.contextLength_eq hsession
  rw [start_eq, prepare_eq hsession, tokenize_firstRun hsession, hcapacity, hvalid]
  generalize s.model.tokenizer.encode prompt = tokens at hlong ⊢
  have hne : tokens ≠ [] := by
    rintro rfl
    simp at hlong
  have hfeed : (firstRun e c o).feedAll (chunks o.batch tokens) = _ :=
    feedAll_chunks_of_long herase (batch_ne_zero_of_validate hvalid) (show Backend.contextLength e < _ by rwa [hcapacity])
  simp only [Except.map]
  rw [if_neg (fun hnothing => hne (List.isEmpty_iff.1 hnothing.1)),
    if_neg (fun hover => herase (Option.isNone_iff_eq_none.1 hover.2)), hfeed]
  change Except.error (Failure.error (.contextOverflow 0 _ (Backend.contextLength e)), _) = _
  rw [hcapacity]

/-- Where a batch fits, and something may be dropped, a prompt is taken in. -/
theorem exists_start_of_fits (hsession : e.session = some s) (hs : s.Sound) (hbegins : c.tokens <+: e.evaluated)
    (hposition : c.position = c.tokens.length) (hvalid : o.validate = .ok ()) (herase : o.erase ≠ none)
    (hne : s.model.tokenizer.encode prompt ≠ [])
    (hfits : min o.batch (s.model.tokenizer.encode prompt).length ≤ s.model.hyperparameters.context) :
    ∃ g, start e c prompt o = .ok g := by
  have hbelow := isBelow_encode_of_valid hs.model prompt
  have hflatten := flatten_chunks o.batch (s.model.tokenizer.encode prompt)
  obtain ⟨r, hfeed⟩ := (conserves_firstRun hsession hs hbegins hposition).exists_feedAll_of_fits
    (ne_nil_of_mem_chunks o.batch (s.model.tokenizer.encode prompt)) (by rwa [hflatten])
    (fun hnone => absurd hnone herase) fun _ piece hpiece =>
      Nat.le_trans (length_le_of_mem_chunks (batch_ne_zero_of_validate hvalid) _ piece hpiece) hfits
  exact ⟨_, (start_eq_ok_iff hsession).2
    ⟨hvalid, fun hnothing => hne hnothing.1, fun hover => herase hover.2, r, hfeed, rfl⟩⟩

/-- Where all of it fits, nothing is dropped. -/
theorem recycled_of_start (hsession : e.session = some s) (hs : s.Sound) (hbegins : c.tokens <+: e.evaluated)
    (hposition : c.position = c.tokens.length) {g : Generation Engine} (hstart : start e c prompt o = .ok g)
    (hroom : c.tokens.length + (s.model.tokenizer.encode prompt).length ≤ s.model.hyperparameters.context) :
    g.run.recycled = 0 := by
  obtain ⟨-, -, -, r, hfeed, rfl⟩ := (start_eq_ok_iff hsession).1 hstart
  have hbelow := isBelow_encode_of_valid hs.model prompt
  have hflatten := flatten_chunks o.batch (s.model.tokenizer.encode prompt)
  have hfirst : InLine s.model (firstRun e c o) := (conserves_firstRun hsession hs hbegins hposition).toInLine
  have hroom' : (firstRun e c o).context.position + (chunks o.batch (s.model.tokenizer.encode prompt)).flatten.length ≤
      (firstRun e c o).context.capacity := by
    rw [hfirst.capacity_eq, hflatten]
    change c.position + _ ≤ _
    rwa [hposition]
  have hne := ne_nil_of_mem_chunks o.batch (s.model.tokenizer.encode prompt)
  have hbelow' := hflatten.symm ▸ hbelow
  obtain ⟨r', hall, hextends⟩ := hfirst.evaluateAll hne hroom' hbelow'
  rw [hfirst.feedAll_eq hne hroom' hbelow', hall] at hfeed
  cases hfeed
  exact hextends.recycled_eq

/-- **When a prompt goes in with a share of the history to drop.**  From a context in line with a reachable engine, a
prompt of at least one token is refused exactly if a batch of it is longer than the context, and then nothing was
evaluated.  Otherwise all of it is evaluated: what the context and the engine hold then is the history with the prompt
behind it, less as many of the oldest tokens as were dropped, which are none if everything fits and never are all. -/
theorem ingested_start (h : Engine.Reachable .machine e) (hsession : e.session = some s)
    (hbegins : c.tokens <+: e.evaluated) (hposition : c.position = c.tokens.length) (hvalid : o.validate = .ok ())
    (herase : o.erase ≠ none) (prompt : String) :
    ∃ tokens, e.tokenize prompt = .ok tokens ∧ (tokens ≠ [] →
      let longest := min o.batch tokens.length
      (s.model.hyperparameters.context < longest → ∃ r,
        start e c prompt o = .error (.error (.contextOverflow 0 longest s.model.hyperparameters.context), r) ∧
        r.context.tokens = c.tokens ∧ r.context.position = c.position ∧ r.recycled = 0 ∧
        r.backend.session = e.session) ∧
      (longest ≤ s.model.hyperparameters.context → ∃ g, start e c prompt o = .ok g ∧
        g.stats.promptTokens = tokens.length ∧
        g.run.context.tokens = (c.tokens ++ tokens).drop g.stats.recycled ∧
        g.run.backend.evaluated = g.run.context.tokens ∧
        g.run.context.position = g.run.context.tokens.length ∧
        g.run.context.position ≤ s.model.hyperparameters.context ∧
        g.stats.recycled < (c.tokens ++ tokens).length ∧
        (g.stats.recycled = 0 ↔ (c.tokens ++ tokens).length ≤ s.model.hyperparameters.context))) := by
  have hs := Engine.sound_of_reachable h s hsession
  refine ⟨s.model.tokenizer.encode prompt, by rw [Engine.tokenize, hsession],
    fun hne => ⟨fun hlong => ?_, fun hfits => ?_⟩⟩
  · exact ⟨_, start_of_long hsession hvalid herase hlong, rfl, rfl, rfl, session_firstRun e c o⟩
  obtain ⟨g, hstart⟩ := exists_start_of_fits hsession hs hbegins hposition hvalid herase hne hfits
  have hkept := kept_of_start hsession hs hbegins hposition hstart
  obtain ⟨r, count, hg⟩ := eq_begin_of_start hstart
  have hgenerated : g.generated = [] := by rw [hg]; rfl
  have hrun := hkept.run
  rw [hgenerated, List.append_nil] at hrun
  have hevaluated := hrun.evaluated_eq hne
  have hadd := hrun.position_add
  have hle := hrun.toInLine.position_le
  have hpos : 0 < g.run.context.position := by
    rw [hrun.position_eq, ← hevaluated]
    exact List.length_pos_iff.2 hkept.awake
  refine ⟨g, hstart, hkept.promptTokens_eq, hrun.tokens_eq, hevaluated, hrun.position_eq, hle, ?_, ?_, fun hroom => ?_⟩
  · change g.run.recycled < _
    omega
  · intro hnone
    change g.run.recycled = 0 at hnone
    omega
  · rw [List.length_append] at hroom
    exact recycled_of_start hsession hs hbegins hposition hstart hroom

end

/-! ### Three letters -/

/-- A tokenizer of two letters, without merges and special tokens, gives a letter's token as often as the letter
stands there. -/
theorem encode_letters {v : Vocabulary} (htokens : v.tokens = #["a", "b"]) (hmerges : v.merges = [])
    (hspecials : v.specials = []) :
    (Tokenizer.ofVocabulary v).encode "aaa" = [.ofIndex 0, .ofIndex 0, .ofIndex 0] := by
  have hwords : Words.find "aaa".toList = [['a', 'a', 'a']].map .ok := by decide +kernel
  have hsymbols : Tokenizer.symbols ['a', 'a', 'a'] = ["a", "a", "a"] := by decide +kernel
  have hpiece : (Tokenizer.ofVocabulary v).encodePiece "a" = [.ofIndex 0] := by
    have hid : (Tokenizer.ofVocabulary v).id? "a" = some (.ofIndex 0) :=
      (Tokenizer.id?_eq_some_iff (by rw [htokens]; decide)).2 ⟨0, by rw [htokens]; rfl, rfl⟩
    rw [Tokenizer.encodePiece, hid]
  rw [Tokenizer.encode_of_find hmerges hspecials hwords, List.flatMap_singleton, hsymbols]
  simp [hpiece]

/-- What is read of the vocabulary of a file decides the tokens of a text. -/
theorem encode_of_ofFile {path : String} {file : Bytes} {m : Model} (hm : Model.ofFile path file = .ok m)
    (hread : (Model.ofFile path file).toOption.map (fun m => (m.tokenizer.vocabulary.tokens,
      m.tokenizer.vocabulary.merges, m.tokenizer.vocabulary.specials)) = some (#["a", "b"], [], [])) :
    m.tokenizer.encode "aaa" = [.ofIndex 0, .ofIndex 0, .ofIndex 0] := by
  obtain ⟨v, hv, -⟩ := (Model.valid_of_ofFile hm).tokenizer
  rw [hm] at hread
  simp only [Except.toOption, Option.map_some, Option.some.injEq, Prod.mk.injEq, hv] at hread
  rw [hv]
  exact encode_letters hread.1 hread.2.1 hread.2.2

/-- An engine with the smallest model, which makes three tokens of three letters. -/
theorem exists_encode_smallest : ∃ s : Session, (Engine.smallest 1).session = some s ∧
    s.model.hyperparameters = Decoder.smallestSizes ∧ s.evaluation.tokens = [] ∧
    s.model.tokenizer.encode "aaa" = [.ofIndex 0, .ofIndex 0, .ofIndex 0] := by
  obtain ⟨v, hv⟩ : ∃ v, Decoder.Evaluation.new Decoder.smallestSizes = .ok v := ⟨_, rfl⟩
  obtain ⟨m, hm, hsizes, hload⟩ := Decoder.exists_load Decoder.ofFile_smallest hv
  have htokens : v.tokens = [] := by
    cases hv
    rfl
  refine ⟨⟨m, 0, v⟩, (by rw [Engine.smallest, hload]; rfl), hsizes, htokens, encode_of_ofFile hm ?_⟩
  rw [Model.ofFile, Model.readHeader, Container.parse_bytes Decoder.readable_smallest]
  decide +kernel

/-- Fed one by one, three tokens go into a context of two. -/
theorem ingested_start_smallest : ∃ g,
    start (Engine.smallest 1) (Context.new 2) "aaa" { dropHalf with batch := 1 } = .ok g ∧
    g.run.context.tokens = [Token.ofIndex 0, .ofIndex 0, .ofIndex 0].drop g.stats.recycled ∧
    g.run.backend.evaluated = g.run.context.tokens ∧ g.stats.recycled ≠ 0 ∧ g.stats.recycled < 3 := by
  obtain ⟨s, hsession, hsizes, -, hencode⟩ := exists_encode_smallest
  obtain ⟨tokens, htokenize, hstart⟩ := ingested_start (c := Context.new 2) (o := { dropHalf with batch := 1 })
    (Decoder.reachable_smallest _ 1) hsession List.nil_prefix rfl rfl (by decide) "aaa"
  rw [Engine.tokenize, hsession] at htokenize
  cases htokenize
  rw [hencode] at hstart
  obtain ⟨-, hfits⟩ := hstart (List.cons_ne_nil _ _)
  rw [hsizes] at hfits
  obtain ⟨g, hg, -, htokens, hevaluated, -, -, hlt, hnone⟩ := hfits (by decide)
  exact ⟨g, hg, htokens, hevaluated, fun h => absurd (hnone.1 h) (by decide), hlt⟩

/-- **A prompt overflows although old tokens may be dropped**: three tokens at once do not fit into a context of two. -/
theorem overflow_of_start : ∃ (s : Session) (o : Options) (r : Run Engine), Engine.Reachable .machine (Engine.smallest 1) ∧
    (Engine.smallest 1).session = some s ∧ (Context.new 2).tokens = (Engine.smallest 1).evaluated ∧
    o.validate = .ok () ∧ o.erase = some .half ∧ (s.model.tokenizer.encode "aaa").length = 3 ∧
    start (Engine.smallest 1) (Context.new 2) "aaa" o = .error (.error (.contextOverflow 0 3 2), r) := by
  obtain ⟨s, hsession, hsizes, htokens, hencode⟩ := exists_encode_smallest
  have hfail : start (Engine.smallest 1) (Context.new 2) "aaa" dropHalf = .error (.error (.contextOverflow 0
      (min dropHalf.batch (s.model.tokenizer.encode "aaa").length) s.model.hyperparameters.context), _) :=
    start_of_long hsession rfl (by decide) (by rw [hencode, hsizes]; decide)
  rw [hencode, hsizes] at hfail
  refine ⟨s, dropHalf, _, Decoder.reachable_smallest _ 1, hsession, ?_, rfl, rfl, congrArg List.length hencode, hfail⟩
  rw [Engine.evaluated_eq hsession, htokens]
  rfl

end Generation
end CausalLM
