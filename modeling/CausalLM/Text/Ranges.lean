/-!
# Text.Ranges — sets of characters as ranges of code points

A character property of the Unicode standard is a list of ascending ranges; both ends of a range belong to it.
-/
namespace CausalLM.Text

/-- Ascending ranges of code points, ends included. -/
abbrev Ranges := List (Nat × Nat)

/-- The character's code point lies in one of the ranges. -/
def Ranges.contains (r : Ranges) (c : Char) : Bool := r.any fun (first, last) => first ≤ c.toNat && c.toNat ≤ last

end CausalLM.Text
