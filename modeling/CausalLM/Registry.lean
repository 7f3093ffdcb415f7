import CausalLM.Container.Probe
import CausalLM.Decoder.Engine
/-!
# Registry — which backend takes a file

A registry is an ordered list of architectures.  A file's front is offered to each in turn, and the first that accepts
it provides the backend.
-/
namespace CausalLM

/-- **An architecture**: its name, the fronts it accepts, and a backend without a model. -/
structure Registry.Entry (σ : Type) where
  name : String
  accepts : Container.Probe → Bool
  backend : σ

/-- **Architectures in the order they are tried.** -/
structure Registry (σ : Type) where
  entries : List (Registry.Entry σ)

namespace Registry

variable {σ : Type}

def empty : Registry σ := ⟨[]⟩

/-- Adds an architecture behind the others. -/
def register (r : Registry σ) (e : Entry σ) : Registry σ := ⟨r.entries ++ [e]⟩

/-- The decoder's entry: containers that name its architecture. -/
def decoderEntry (engine : Decoder.Engine) : Entry Decoder.Engine where
  name := Decoder.architecture
  accepts := fun p => p.isContainer && Decoder.accepts p.architecture
  backend := engine

def standard (engine : Decoder.Engine) : Registry Decoder.Engine := ⟨[decoderEntry engine]⟩

def names (r : Registry σ) : List String := r.entries.map (·.name)

/-- The first entry that accepts a front. -/
def match? (r : Registry σ) (p : Container.Probe) : Option (Entry σ) := r.entries.find? (·.accepts p)

/-- The entries a front is offered to: up to the first that accepts it. -/
def offered (r : Registry σ) (p : Container.Probe) : List (Entry σ) :=
  r.entries.takeWhile (fun e => !e.accepts p) ++ (r.match? p).toList

/-- **The backend for the file at a path.** -/
def select (r : Registry σ) (files : Files) (path : String) : Except Error σ := do
  let file ← files.read path
  match r.match? (.ofFile file) with
  | some e => return e.backend
  | none => throw (.noMatch path)

end Registry
end CausalLM
