import CausalLM.Sampling
/-!
# Context — the history a generation works on

A context mirrors what a backend has evaluated for it: the tokens and their number, which is the position the next
token goes to.  It also carries what steers the generation: how much fits, how much of a prompt goes in at once, how
tokens are sampled, and whether old tokens make room for new ones.
-/
namespace CausalLM

/-- **A history and what steers its continuation.** -/
structure Context where
  tokens : List Token
  /-- Where the next token goes. -/
  position : Nat
  /-- Positions there are. -/
  capacity : Nat
  /-- Prompt tokens evaluated at once. -/
  batch : Nat
  sampling : Sampling
  /-- The share of the history that is dropped when it is full; without one, a full history ends the generation. -/
  erase : Option Single
  deriving DecidableEq, Repr, Inhabited

namespace Context

/-- The batch of a context that does not say. -/
def defaultBatch : Nat := 9

def new (capacity : Nat) : Context where
  tokens := []
  position := 0
  capacity := capacity
  batch := defaultBatch
  sampling := .default
  erase := none

def withSampling (c : Context) (sampling : Sampling) : Context := { c with sampling }

/-- At least one token goes in at once. -/
def withBatch (c : Context) (n : Nat) : Context := { c with batch := max n 1 }

def remaining (c : Context) : Nat := c.capacity - c.position

def clear (c : Context) : Context := { c with tokens := [], position := 0 }

/-- Keeps the first `n` tokens. -/
def truncate (c : Context) (n : Nat) : Context :=
  { c with tokens := c.tokens.take n, position := (c.tokens.take n).length }

def adopt (c : Context) (tokens : List Token) : Context := { c with tokens, position := tokens.length }

/-- **The trailing tokens the penalty looks at.** -/
def window (c : Context) : List Token :=
  c.tokens.drop (c.tokens.length - min c.sampling.penaltyWindow c.tokens.length)

end Context
end CausalLM
