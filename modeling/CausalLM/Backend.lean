import CausalLM.Bytes
import CausalLM.Context
import CausalLM.Hyperparameters
import CausalLM.Text.Utf8
/-!
# Backend — what a generation needs of a model

A backend holds the evaluation of one history: it evaluates tokens at a position, samples from the logits of the last
one, and can be reset, saved and restored.  Operations that change it give back the backend as it is afterwards, also
when they fail.
-/
namespace CausalLM

/-- **What a backend's memory is spent on**, in bytes. -/
structure MemoryUsage where
  weights : Nat
  mapped : Nat
  cache : Nat
  scratch : Nat
  tables : Nat
  deriving DecidableEq, Repr, Inhabited

namespace MemoryUsage

def none : MemoryUsage := ⟨0, 0, 0, 0, 0⟩

/-- Everything, as if it were all held at once. -/
def peak (m : MemoryUsage) : Nat := m.weights + m.mapped + m.cache + m.scratch + m.tables

end MemoryUsage

/-- **An evaluation that can be driven.** -/
class Backend (σ : Type) where
  architecture : σ → String
  isLoaded : σ → Bool
  /-- The longest history; zero without a model. -/
  contextLength : σ → Nat
  /-- The tokens that end a text. -/
  endTokens : σ → List Token
  tokenize : σ → Context → String → Except Error (List Token)
  /-- The bytes of a token.  A character may be spread over several tokens. -/
  tokenBytes : σ → Token → Bytes
  /-- Evaluates tokens in order, from the context's position on. -/
  evaluate : σ → Context → List Token → Except Error Unit × σ × Context
  /-- Draws the next token from the logits of the last one evaluated. -/
  sample : σ → Context → Except Error Token × σ
  /-- Forgets all evaluated tokens. -/
  reset : σ → Except Error Unit × σ
  /-- The evaluated tokens in order. -/
  evaluated : σ → List Token
  setSeed : σ → UInt64 → σ
  /-- The bytes `save` writes now. -/
  stateBytes : σ → Nat
  /-- Writes the state over the front of a buffer, and says how many bytes it took. -/
  save : σ → Bytes → Except Error (Nat × Bytes)
  /-- Takes the state from a buffer, and says how many bytes it took. -/
  restore : σ → Bytes → Except Error Nat × σ
  hyperparameters : σ → Option Hyperparameters
  memoryUsage : σ → MemoryUsage

namespace Backend

variable {σ : Type} [Backend σ]

/-- The text of a token, broken characters replaced. -/
def tokenText (b : σ) (t : Token) : String := Utf8.toStringLossy (tokenBytes b t)

/-- The context of a backend: empty, with as many positions. -/
def newContext (b : σ) : Context := Context.new (contextLength b)

/-- **The state in a buffer of its own.** -/
def capture (b : σ) : Except Error Bytes :=
  match save b (List.replicate (stateBytes b) 0) with
  | .error e => .error e
  | .ok (n, buffer) => .ok (buffer.take n)

/-- **Takes over a saved state**, and brings the context in line with it. -/
def resume (b : σ) (c : Context) (buffer : Bytes) : Except Error Unit × σ × Context :=
  match restore b buffer with
  | (.error e, b) => (.error e, b, c)
  | (.ok _, b) => (.ok (), b, { c with capacity := contextLength b }.adopt (evaluated b))

end Backend
end CausalLM
