import CausalLM.Number.Double
/-!
# Random — the seeded generator

A linear congruence modulo `2 ^ 64` whose whole state is one word, with a mixing step on the way out because the low
bits of a congruence are weak.  A saved state therefore replays exactly the draws that followed it.
-/
namespace CausalLM

/-- **A generator**: the one word it remembers. -/
structure Generator where
  state : UInt64
  deriving DecidableEq, Repr, Inhabited

namespace Generator

def advance (s : UInt64) : UInt64 := s * 6364136223846793005 + 1442695040888963407

/-- The word drawn from a state: three shifted xors around two odd multiplications. -/
def mix (s : UInt64) : UInt64 :=
  let z := (s ^^^ (s >>> 30)) * 0xbf58476d1ce4e5b9
  let z := (z ^^^ (z >>> 27)) * 0x94d049bb133111eb
  z ^^^ (z >>> 31)

/-- One draw: a uniform word, and the generator after it. -/
def next (g : Generator) : UInt64 × Generator :=
  let s := advance g.state
  (mix s, ⟨s⟩)

/-- A uniform draw from `[0, 1)`: the 53 upper bits of a word, scaled. -/
def nextUnit (g : Generator) : Double × Generator :=
  let (w, g) := g.next
  (Double.ofNat (w >>> 11).toNat / Double.ofNat (2 ^ 53), g)

/-- A uniform draw from `[low, high)`. -/
def nextBetween (g : Generator) (low high : Double) : Double × Generator :=
  let (u, g) := g.nextUnit
  (low + u * (high - low), g)

end Generator
end CausalLM
