import CausalLM.Container.Header
/-!
# Container.Probe — a first look at a file

Choosing a backend needs only the front of a file: whether it is a container, of which version, and what architecture
it names.  The look stops at the first `general.architecture` key and never fails: a file that is no container, or a
front that ends early, has no architecture.
-/
namespace CausalLM.Container

/-- **What the front of a file says.** -/
structure Probe where
  magic : Nat
  version : Nat
  architecture : Option String
  deriving DecidableEq, Repr, Inhabited

namespace Probe

/-- How much of a file is looked at.  A key that ends later is not seen. -/
def frontBytes : Nat := 64 * 1024

/-- The first architecture key among so many pairs; `none` also where the bytes end or cannot be read. -/
def scanPairs (n : Nat) (s : Bytes) : Option String :=
  match n with
  | 0 => none
  | n + 1 => match readPair s with
    | .error _ => none
    | .ok ((key, value), r) => if key = "general.architecture" then value.asString else scanPairs n r.1

/-- The architecture that what follows the version names. -/
def scan (s : Bytes) : Option String :=
  match readWord64 s with
  | .error _ => none
  | .ok (_, r) => match readWord64 r.1 with
    | .error _ => none
    | .ok (n, r) => scanPairs n r.1

/-- A word at the front, and what is left.  Where there is none the word is zero and all bytes are used up. -/
def wordOrZero (s : Bytes) : Nat × Bytes :=
  match readWord32 s with
  | .ok (n, r) => (n, r.1)
  | .error _ => (0, [])

/-- **Looks at the bytes given.** -/
def ofFront (front : Bytes) : Probe :=
  let (magic, r) := wordOrZero front
  let (version, r) := wordOrZero r
  { magic, version, architecture := if magic = Container.magic then scan r else none }

def ofFile (file : Bytes) : Probe := ofFront (file.take frontBytes)

/-- The file is a container of a version this library reads. -/
def isContainer (p : Probe) : Bool := p.magic == Container.magic && Header.supportedVersion p.version

end Probe
end CausalLM.Container
