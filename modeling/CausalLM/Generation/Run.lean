import CausalLM.Backend
/-!
# Generation.Run — a backend and the context it works for

Evaluation and recycling change a backend and its context together, and they may stop half way; a run is the two with
the number of tokens dropped so far.  Recycling makes room in a full history: the oldest tokens are dropped, and what
is kept is evaluated anew.

A context keeps its position beside its tokens, and how many tokens are dropped is worked out from the position.  Where
that is more than there are tokens the program panics, so a failure is an error or a panic (`Failure`).
-/
namespace CausalLM.Generation

/-- **How a call fails**: with an error that it gives back, or by a panic, which gives nothing back. -/
inductive Failure where
  | error (e : Error)
  | panic
  deriving DecidableEq, Repr, Inhabited

/-- **A backend, its context, and how many tokens were dropped.** -/
structure Run (σ : Type) where
  backend : σ
  context : Context
  recycled : Nat

/-- The list in pieces of `n`, the last possibly shorter; of at least one. -/
def chunks {α : Type} (n : Nat) : List α → List (List α)
  | [] => []
  | a :: rest => (a :: rest.take (n - 1)) :: chunks n (rest.drop (n - 1))
termination_by l => l.length
decreasing_by exact Nat.lt_succ_of_le (List.drop_sublist _ _).length_le

namespace Run

variable {σ : Type} [Backend σ]

def evaluate (r : Run σ) (tokens : List Token) : Except Failure Unit × Run σ :=
  let (result, backend, context) := Backend.evaluate r.backend r.context tokens
  (result.mapError .error, { r with backend, context })

/-- Evaluates pieces in order, up to the first that fails. -/
def evaluateAll (r : Run σ) : List (List Token) → Except Failure Unit × Run σ
  | [] => (.ok (), r)
  | piece :: rest => match r.evaluate piece with
    | (.error e, r) => (.error e, r)
    | (.ok (), r) => r.evaluateAll rest

/-- How many tokens are dropped for `incoming` more: the share `fraction` of the history, at least what is lacking, at
most all. -/
def dropCount (c : Context) (fraction : Single) (incoming : Nat) : Nat :=
  let byFraction := (Single.ofNat c.position * fraction).ceil.toWord
  let needed := c.position + incoming - c.capacity
  min (max byFraction needed) c.position

/-- **Makes room for `incoming` more tokens.**  The slice of tokens that are kept has to start within them. -/
def recycle (r : Run σ) (incoming : Nat) : Except Failure Unit × Run σ :=
  let c := r.context
  match c.erase with
  | none => (.error (.error (.contextOverflow c.position incoming c.capacity)), r)
  | some fraction =>
    if c.capacity < incoming then (.error (.error (.contextOverflow 0 incoming c.capacity)), r)
    else
      let dropped := dropCount c fraction incoming
      if c.tokens.length < dropped then (.error .panic, r)
      else
        let kept := c.tokens.drop dropped
        match Backend.reset r.backend with
        | (.error e, backend) => (.error (.error e), { r with backend })
        | (.ok (), backend) =>
          match evaluateAll { r with backend, context := c.clear } (chunks (max c.batch 1) kept) with
          | (.error e, r) => (.error e, r)
          | (.ok (), r) => (.ok (), { r with recycled := r.recycled + dropped })

/-- Evaluates tokens, making room first where they do not fit. -/
def feed (r : Run σ) (tokens : List Token) : Except Failure Unit × Run σ :=
  if r.context.capacity < r.context.position + tokens.length then
    match r.recycle tokens.length with
    | (.error e, r) => (.error e, r)
    | (.ok (), r) => r.evaluate tokens
  else r.evaluate tokens

/-- Feeds pieces in order, up to the first that fails. -/
def feedAll (r : Run σ) : List (List Token) → Except Failure Unit × Run σ
  | [] => (.ok (), r)
  | piece :: rest => match r.feed piece with
    | (.error e, r) => (.error e, r)
    | (.ok (), r) => r.feedAll rest

/-- **Samples a token and evaluates it**, making room first in a full history.  An end token is not evaluated. -/
def step (r : Run σ) : Except Failure (Option Token) × Run σ :=
  match Backend.sample r.backend r.context with
  | (.error e, backend) => (.error (.error e), { r with backend })
  | (.ok t, backend) =>
    let r := { r with backend }
    if (Backend.endTokens backend).contains t then (.ok none, r)
    else
      let (room, r) := if r.context.remaining = 0 then r.recycle 1 else (.ok (), r)
      match room with
      | .error e => (.error e, r)
      | .ok () => match r.evaluate [t] with
        | (.error e, r) => (.error e, r)
        | (.ok (), r) => (.ok (some t), r)

end Run
end CausalLM.Generation
