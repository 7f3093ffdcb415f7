import CausalLM.Backend
/-!
# Backend.Either — one of two kinds of backend

The sum of two kinds of backend is a backend: every operation is that of the side it is on, and stays on it.
-/
namespace CausalLM.Backend

variable {σ τ α : Type}

/-- What an operation says, and the backend it leaves, on either side. -/
def onEither (f : σ → α × σ) (g : τ → α × τ) : σ ⊕ τ → α × (σ ⊕ τ)
  | .inl x => let (a, x) := f x; (a, .inl x)
  | .inr x => let (a, x) := g x; (a, .inr x)

instance [Backend σ] [Backend τ] : Backend (σ ⊕ τ) where
  architecture := Sum.elim architecture architecture
  isLoaded := Sum.elim isLoaded isLoaded
  contextLength := Sum.elim contextLength contextLength
  endTokens := Sum.elim endTokens endTokens
  tokenize := fun b c text => b.elim (tokenize · c text) (tokenize · c text)
  tokenBytes := fun b t => b.elim (tokenBytes · t) (tokenBytes · t)
  evaluate
    | .inl x, c, l => let (r, x, c) := evaluate x c l; (r, .inl x, c)
    | .inr x, c, l => let (r, x, c) := evaluate x c l; (r, .inr x, c)
  sample := fun b c => onEither (sample · c) (sample · c) b
  reset := onEither reset reset
  evaluated := Sum.elim evaluated evaluated
  setSeed := fun b seed => b.map (setSeed · seed) (setSeed · seed)
  stateBytes := Sum.elim stateBytes stateBytes
  save := fun b buffer => b.elim (save · buffer) (save · buffer)
  restore := fun b buffer => onEither (restore · buffer) (restore · buffer) b
  hyperparameters := Sum.elim hyperparameters hyperparameters
  memoryUsage := Sum.elim memoryUsage memoryUsage

end CausalLM.Backend
