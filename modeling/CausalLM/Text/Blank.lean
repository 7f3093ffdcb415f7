import CausalLM.Text.Ranges
/-!
# Text.Blank — the Unicode property White_Space

Blanks are the 25 code points with the property White_Space: tabulators and line ends, the spaces, and the two
separators of lines and paragraphs.
-/
namespace CausalLM.Text

/-- The ranges of White_Space. -/
def blanks : Ranges := [
  (0x9, 0xd), (0x20, 0x20), (0x85, 0x85), (0xa0, 0xa0), (0x1680, 0x1680), (0x2000, 0x200a), (0x2028, 0x2029),
  (0x202f, 0x202f), (0x205f, 0x205f), (0x3000, 0x3000)]

def isBlank (c : Char) : Bool := blanks.contains c

end CausalLM.Text
