import CausalLM.Backend.Scripted
import CausalLM.Decoder.Engine
import CausalLM.Generation
import CausalLM.Proofs.Generation.Run
import CausalLM.Proofs.Text.Utf8
/-!
# Proofs.Generation.Fragments — the fragments are the text of the tokens

A generation shows the bytes of its tokens as text while they come, and holds back what may still become a character.
`Accounts` says what is shown at every point: the text of all bytes so far is what was shown and then the text of what
is held.  Every call of `next` keeps it (`Accounts.next`), so any number of calls does (`Accounts.pull`), and a run
that ends well holds nothing back (`text_pull`).  A backend has to keep the bytes of its tokens while a run goes on, as
the scripted backend and the engines do.
-/
namespace CausalLM

/-- A scripted backend changes no more than its history and its counts while a run goes on. -/
theorem Scripted.stable {α : Type} {f : Scripted → α}
    (hf : ∀ s history samples evaluations, f { s with history, samples, evaluations } = f s) (a : α) :
    Backend.Stable fun s : Scripted => f s = a where
  evaluate s c l h := by
    show f (s.evaluate c l).2.1 = a
    unfold Scripted.evaluate
    split
    · exact h
    · split
      · exact h
      · exact (hf s _ _ _).trans h
  sample s c h := by
    show f s.sample.2 = a
    unfold Scripted.sample
    split
    · exact h
    · exact (hf s _ _ _).trans h
  reset s h := by
    show f (if s.failReset then _ else _ : Except Error Unit × Scripted).2 = a
    split
    · exact h
    · exact (hf s _ _ _).trans h

theorem Scripted.stable_tokenBytes (bytes : Token → Bytes) :
    Backend.Stable fun s : Scripted => Backend.tokenBytes s = bytes :=
  Scripted.stable (fun _ _ _ _ => rfl) bytes

namespace Decoder.Engine

theorem model_evaluate (k : Kernels) (e : Engine) (c : Context) (tokens : List Token) :
    (e.evaluate k c tokens).2.1.model? = e.model? := by
  unfold evaluate
  split
  · rfl
  · dsimp only
    split
    · rfl
    split
    · rfl
    split
    · rfl
    split
    · rfl
    · split <;> rfl

/-- **An engine keeps its model while a run goes on.** -/
theorem stable_model (m : Option Model) : Backend.Stable fun e : Engine => e.model? = m where
  evaluate e c l h := (model_evaluate .machine e c l).trans h
  sample e c h := by
    refine Eq.trans ?_ h
    change (e.sample c).2.model? = _
    rw [sample]
    split
    · rfl
    · split <;> rfl
  reset e h := by
    refine Eq.trans ?_ h
    change e.reset.2.model? = _
    rw [reset]
    split <;> rfl

/-- What an engine has of its model it keeps too. -/
theorem stable_of_model {α : Type} {f : Engine → α} (hf : ∀ e e' : Engine, e'.model? = e.model? → f e' = f e) (a : α) :
    Backend.Stable fun e : Engine => f e = a where
  evaluate e c l h := (hf _ _ ((stable_model _).evaluate e c l rfl)).trans h
  sample e c h := (hf _ _ ((stable_model _).sample e c rfl)).trans h
  reset e h := (hf _ _ ((stable_model _).reset e rfl)).trans h

theorem tokenBytes_eq_of_model_eq {e e' : Engine} (h : e'.model? = e.model?) : e'.tokenBytes = e.tokenBytes := by
  funext t
  rw [tokenBytes, tokenBytes, h]

theorem endTokens_eq_of_model_eq {e e' : Engine} (h : e'.model? = e.model?) : e'.endTokens = e.endTokens := by
  rw [endTokens, endTokens, h]

theorem stable_tokenBytes (bytes : Token → Bytes) : Backend.Stable fun e : Engine => Backend.tokenBytes e = bytes :=
  stable_of_model (fun _ _ => tokenBytes_eq_of_model_eq) bytes

theorem stable_endTokens (ends : List Token) : Backend.Stable fun e : Engine => Backend.endTokens e = ends :=
  stable_of_model (fun _ _ => endTokens_eq_of_model_eq) ends

end Decoder.Engine

namespace Generation

open Utf8 (lossy drain)

variable {σ : Type} [Backend σ]

/-! ## Items and calls -/

omit [Backend σ] in
@[simp] theorem fst_fail (g : Generation σ) (e : Failure) : (g.fail e).1 = some (.error e) := by
  cases e <;> rfl

/-- The characters of a fragment; a failure and an end show none. -/
def Item.chars : Item → List Char
  | some (.ok s) => s.toList
  | _ => []

/-- **The text of items**: their fragments one after the other. -/
def textOf (items : List Item) : String := String.ofList (items.flatMap Item.chars)

/-- **So many calls of `next`**: what they give, and the generation after them. -/
def pull : Nat → Generation σ → List Item × Generation σ
  | 0, g => ([], g)
  | n + 1, g =>
    let (item, g) := g.next
    let (items, g) := pull n g
    (item :: items, g)

/-! ## What was shown and what is held -/

/-- **The account of a generation**: over tokens that stand for `bytes`, after `shown` was shown.  While it goes on,
more bytes can come, and they are read behind what is held. -/
structure Accounts (bytes : Token → Bytes) (shown : List Char) (g : Generation σ) : Prop where
  bytes_eq : Backend.tokenBytes g.run.backend = bytes
  told : lossy (g.generated.flatMap bytes) = shown ++ lossy g.held
  going : g.isDone = false → ∀ more, lossy (g.generated.flatMap bytes ++ more) = shown ++ lossy (g.held ++ more)
  length_held : g.held.length ≤ 3

variable {bytes : Token → Bytes} {shown : List Char}

theorem Accounts.step (hb : Backend.Stable fun b : σ => Backend.tokenBytes b = bytes) {g : Generation σ}
    (h : Accounts bytes shown g) {answer : Except Failure (Option Token)} {run : Run σ}
    (hstep : g.run.step = (answer, run)) : Accounts bytes shown { g with run } := by
  have hrun := Run.step_stable hb h.bytes_eq
  rw [hstep] at hrun
  exact ⟨hrun, h.told, h.going, h.length_held⟩

theorem Accounts.accept {g : Generation σ} (h : Accounts bytes shown g) (hg : g.isDone = false) (t : Token) :
    Accounts bytes (shown ++ (g.accept t).1) (g.accept t).2 := by
  have hread : ∀ more, lossy ((g.generated ++ [t]).flatMap bytes ++ more) =
      shown ++ (drain (g.held ++ bytes t)).1 ++ lossy ((drain (g.held ++ bytes t)).2 ++ more) := by
    intro more
    calc lossy ((g.generated ++ [t]).flatMap bytes ++ more)
        = lossy (g.generated.flatMap bytes ++ (bytes t ++ more)) := by simp
      _ = shown ++ lossy ((g.held ++ bytes t) ++ more) := by rw [h.going hg, List.append_assoc g.held]
      _ = _ := by rw [Utf8.lossy_append, List.append_assoc]
  have hbytes : Backend.tokenBytes g.run.backend t = bytes t := by rw [h.bytes_eq]
  unfold Generation.accept
  rw [hbytes]
  exact ⟨h.bytes_eq, by simpa using hread [], fun _ => hread, Utf8.length_drain_le _⟩

/-- Stopping shows the text of what is held, and holds nothing any more. -/
theorem Accounts.finish {g : Generation σ} (h : Accounts bytes shown g) (reason : StopReason) :
    Accounts bytes (shown ++ (g.finish reason).1.chars) (g.finish reason).2 := by
  have hstop : ∀ held, ({ g with stop := some reason, done := true, held } : Generation σ).isDone ≠ false := fun _ => by simp [isDone]
  unfold Generation.finish
  split
  · exact ⟨h.bytes_eq, by simpa [Item.chars] using h.told, fun hd => absurd hd (hstop g.held), h.length_held⟩
  · refine ⟨h.bytes_eq, ?_, fun hd => absurd hd (hstop []), Nat.zero_le 3⟩
    simpa [Item.chars, Utf8.toStringLossy] using h.told

theorem Accounts.fail {g : Generation σ} (h : Accounts bytes shown g) (e : Failure) :
    Accounts bytes (shown ++ (g.fail e).1.chars) (g.fail e).2 := by
  have hchars : (g.fail e).1.chars = [] := by rw [fst_fail]; rfl
  rw [hchars, List.append_nil]
  cases e with
  | error e => exact ⟨h.bytes_eq, h.told, fun hd => (by cases hd), h.length_held⟩
  | panic => exact h

/-- **A call of `next` keeps the account**: what it shows is taken from what was held and from the bytes that came. -/
theorem Accounts.next (hb : Backend.Stable fun b : σ => Backend.tokenBytes b = bytes) {g : Generation σ}
    (h : Accounts bytes shown g) : Accounts bytes (shown ++ g.next.1.chars) g.next.2 := by
  fun_induction Generation.next g generalizing shown with
  | case1 g hd => simpa [Item.chars] using h
  | case2 g hd hbudget => exact h.finish _
  | case3 g hd hbudget e run hstep => exact (h.step hb hstep).fail e
  | case4 g hd hbudget run hstep => exact (h.step hb hstep).finish _
  | case5 g hd hbudget t run hstep taken htext =>
    -- the token gave no text, and the call goes on with the next one
    rename_i ih
    have htaken := (h.step hb hstep).accept (Bool.eq_false_iff.2 hd) t
    rw [List.isEmpty_iff.1 htext, List.append_nil] at htaken
    exact ih htaken
  | case6 g hd hbudget t run hstep htext =>
    simpa [Item.chars] using (h.step hb hstep).accept (Bool.eq_false_iff.2 hd) t

theorem held_finish {σ : Type} (g : Generation σ) (reason : StopReason) : (g.finish reason).2.held = [] := by
  unfold finish
  split
  · rename_i hheld
    exact List.isEmpty_iff.1 hheld
  · rfl

/-- A call of `next` that does not fail leaves nothing held when it ends the generation. -/
theorem held_next (g : Generation σ) (hg : g.isDone = true → g.held = []) (hok : ∀ e, g.next.1 ≠ some (.error e))
    (hdone : g.next.2.isDone = true) : g.next.2.held = [] := by
  fun_induction Generation.next g with
  | case1 g hd => exact hg hd
  | case2 g hd hbudget => exact held_finish g _
  | case3 g hd hbudget e run hstep => exact absurd (fst_fail _ e) (hok e)
  | case4 g hd hbudget run hstep => exact held_finish _ _
  | case5 g hd hbudget t run hstep taken htext ih => exact ih (fun h => absurd h hd) hok hdone
  | case6 g hd hbudget t run hstep htext => exact absurd hdone hd

/-! ## Whole runs -/

theorem Accounts.pull (hb : Backend.Stable fun b : σ => Backend.tokenBytes b = bytes) :
    ∀ (n : Nat) {shown : List Char} {g : Generation σ}, Accounts bytes shown g →
      Accounts bytes (shown ++ (pull n g).1.flatMap Item.chars) (pull n g).2
  | 0, _, _, h => by simpa [Generation.pull] using h
  | n + 1, _, _, h => by simpa [Generation.pull] using Accounts.pull hb n (h.next hb)

theorem held_pull : ∀ (n : Nat) (g : Generation σ), (g.isDone = true → g.held = []) →
    (∀ e, some (.error e) ∉ (pull n g).1) → (pull n g).2.isDone = true → (pull n g).2.held = []
  | 0, _, hg, _, hdone => hg hdone
  | n + 1, g, hg, hok, hdone => by
    refine held_pull n g.next.2 (held_next g hg fun e he => hok e ?_) (fun e he => hok e ?_) hdone
    · exact List.mem_cons.2 (.inl he.symm)
    · exact List.mem_cons_of_mem _ he

/-- **A generation as it starts**, from a prompt or from a restored state. -/
def Started (g : Generation σ) : Prop :=
  ∃ (b : σ) (c : Context) (o : Options), (∃ prompt, start b c prompt o = .ok g) ∨ resume b c o = .ok g

theorem eq_begin_of_start {b : σ} {c : Context} {prompt : String} {o : Options} {g : Generation σ}
    (h : start b c prompt o = .ok g) : ∃ (r : Run σ) (n : Nat), g = begin r o n := by
  unfold start at h
  split at h
  · cases h
  · dsimp only at h
    split at h
    · cases h
    · rename_i tokens _
      split at h
      · cases h
      · split at h
        · cases h
        · split at h
          · cases h
          · rename_i r _
            cases h
            exact ⟨r, tokens.length, rfl⟩

theorem eq_begin_of_resume {b : σ} {c : Context} {o : Options} {g : Generation σ}
    (h : resume b c o = .ok g) : ∃ (r : Run σ) (n : Nat), g = begin r o n := by
  unfold resume at h
  split at h
  · cases h
  · dsimp only at h
    split at h
    · cases h
    · cases h
      exact ⟨_, 0, rfl⟩

/-- A generation starts with nothing generated and nothing held, and is not done. -/
theorem Started.isEmpty {g : Generation σ} (h : Started g) : g.generated = [] ∧ g.held = [] ∧ g.isDone = false := by
  obtain ⟨b, c, o, ⟨prompt, h⟩ | h⟩ := h
  · obtain ⟨r, n, rfl⟩ := eq_begin_of_start h
    exact ⟨rfl, rfl, rfl⟩
  · obtain ⟨r, n, rfl⟩ := eq_begin_of_resume h
    exact ⟨rfl, rfl, rfl⟩

theorem Started.accounts {g : Generation σ} (h : Started g) : Accounts (Backend.tokenBytes g.run.backend) [] g := by
  obtain ⟨hgenerated, hheld, -⟩ := h.isEmpty
  refine ⟨rfl, ?_, fun _ more => ?_, ?_⟩
  · rw [hgenerated, hheld]
    rfl
  · rw [hgenerated, hheld]
    rfl
  · rw [hheld]
    exact Nat.zero_le 3

/-- **The fragments are the text of the tokens**, however the bytes of characters are spread over them.  After any
number of calls the fragments and the text of what is held are the text of the bytes of all generated tokens; never are
more than three bytes held; and a run that ends without a failure holds nothing, so its fragments alone are that
text. -/
theorem text_pull {g : Generation σ} (hg : Started g)
    (hb : Backend.Stable fun b : σ => Backend.tokenBytes b = Backend.tokenBytes g.run.backend) (n : Nat) :
    let (items, g') := pull n g
    let all := g'.generated.flatMap (Backend.tokenBytes g.run.backend)
    textOf items ++ Utf8.toStringLossy g'.held = Utf8.toStringLossy all ∧
    g'.held.length ≤ 3 ∧
    ((∀ e, some (.error e) ∉ items) → g'.isDone = true → g'.held = [] ∧ textOf items = Utf8.toStringLossy all) := by
  have h := hg.accounts.pull hb n
  have htext : textOf (pull n g).1 ++ Utf8.toStringLossy (pull n g).2.held =
      Utf8.toStringLossy ((pull n g).2.generated.flatMap (Backend.tokenBytes g.run.backend)) := by
    rw [textOf, Utf8.toStringLossy, Utf8.toStringLossy, ← String.ofList_append, h.told, List.nil_append]
  refine ⟨htext, h.length_held, fun hok hdone => ?_⟩
  obtain ⟨-, -, hgoing⟩ := hg.isEmpty
  have hheld := held_pull n g (fun hd => by rw [hgoing] at hd; cases hd) hok hdone
  refine ⟨hheld, ?_⟩
  rw [← htext, hheld]
  simp [Utf8.toStringLossy]

/-- The sign `€` over two tokens, then a byte that stands in no character, then the beginning of one. -/
def splitEuro : Scripted where
  script := [⟨2⟩, ⟨3⟩, ⟨0⟩]
  pieces := [[], [], [0xe2, 0x82], [0xac, 0xff, 0xf0, 0x9f]]

/-- The generation that plays it. -/
def splitEuroGeneration : Generation Scripted := begin ⟨splitEuro, configure splitEuro (.new 0) .default, 0⟩ .default 0

theorem text_pull_splitEuro :
    Started splitEuroGeneration ∧ (pull 3 splitEuroGeneration).2.isDone = true ∧
    (∀ e, some (.error e) ∉ (pull 3 splitEuroGeneration).1) ∧ (pull 3 splitEuroGeneration).2.held = [] ∧
    textOf (pull 3 splitEuroGeneration).1 = "€\uFFFD\uFFFD" := by
  have hstart : Started splitEuroGeneration := ⟨splitEuro, .new 0, .default, .inr rfl⟩
  have hdone : (pull 3 splitEuroGeneration).2.isDone = true := by decide +kernel
  have hgood : (pull 3 splitEuroGeneration).1.all (fun item => item.all Except.isOk) = true := by decide +kernel
  have hok : ∀ e, some (.error e) ∉ (pull 3 splitEuroGeneration).1 := fun e he => by
    have hitem := List.all_eq_true.1 hgood _ he
    cases hitem
  obtain ⟨-, -, hend⟩ := text_pull hstart (Scripted.stable_tokenBytes _) 3
  obtain ⟨hheld, htext⟩ := hend hok hdone
  refine ⟨hstart, hdone, hok, hheld, htext.trans ?_⟩
  decide +kernel

end Generation
end CausalLM
