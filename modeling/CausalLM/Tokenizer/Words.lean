import CausalLM.Text.Blank
import CausalLM.Text.Letter
import CausalLM.Text.Numeral
import CausalLM.Tokenizer.Pattern
/-!
# Tokenizer.Words — cutting a text into words

A text is cut before pieces are merged, so that no piece crosses a word.  A word is an English contraction, or a run
of letters, of numerals or of other signs with at most one space before it, or a run of blanks.  A run of blanks
leaves its last one to the word that follows.

The words are the matches of a pattern, and a search for them is a parameter of the tokenizer: an engine goes through a
text and gives the matches, or gives up.  `find` is the search of an engine that keeps a branch for each character it
runs over and gives up at a million.
-/
namespace CausalLM.Words

/-- The endings that are cut off as words of their own, in the order they are tried. -/
def contractions : List (List Char) :=
  [['\'', 's'], ['\'', 't'], ['\'', 'r', 'e'], ['\'', 'v', 'e'], ['\'', 'm'], ['\'', 'l', 'l'], ['\'', 'd']]

/-- Neither blank nor letter nor numeral. -/
def isSign (c : Char) : Bool := !(Text.isBlank c || Text.isLetter c || Text.isNumeral c)

/-- A run of a class with at most one space before it. -/
def spaced (k : Char → Bool) : Pattern := .sequence (.optional (.text [' '])) (.run k)

/-- **The pattern of words.** -/
def pattern : Pattern :=
  contractions.foldr (fun x others => .either (.text x) others) <|
    .either (spaced Text.isLetter) <| .either (spaced Text.isNumeral) <| .either (spaced isSign) <|
      .either (.sequence (.run Text.isBlank) (.notAhead fun c => !Text.isBlank c)) (.run Text.isBlank)

/-- **A search for words**: for each the word, or why the search was given up. -/
abbrev Finder := List Char → List (Except Pattern.Failure (List Char))

/-! ## One engine -/

def contraction? (s : List Char) : Option Nat := (contractions.find? (·.isPrefixOf s)).map List.length

/-- The length of the run of one class at the front. -/
def runLength (k : Char → Bool) (s : List Char) : Nat := (s.takeWhile k).length

def spacedLength? (k : Char → Bool) : List Char → Option Nat
  | [] => none
  | c :: rest =>
    let (lead, body) := if c = ' ' then (1, rest) else (0, c :: rest)
    if body.head?.any k then some (lead + runLength k body) else none

/-- The length of the run of blanks that makes a word, `run` of them with `after` behind. -/
def blankLength (run : Nat) (after : List Char) : Nat := if after.isEmpty || run == 1 then run else run - 1

/-- **The length of the first word**, by the alternatives of the pattern in order. -/
def wordLength (s : List Char) : Nat :=
  contraction? s <|> spacedLength? Text.isLetter s <|> spacedLength? Text.isNumeral s <|> spacedLength? isSign s
    |>.getD (blankLength (runLength Text.isBlank s) (s.dropWhile Text.isBlank))

/-- Branches that are open at most. -/
def maxBranches : Nat := 1000000

/-- Branches that are open where a word was run over: one for each of its characters, also of the blanks that are given
back, one for the alternatives after it and one for a later beginning. -/
def branches (s : List Char) : Nat := max (wordLength s) (runLength Text.isBlank s) + 2

/-- **The words of a text**, up to the first that takes too many branches. -/
def find : Finder
  | [] => []
  | c :: rest =>
    if maxBranches < branches (c :: rest) then [.error .stackOverflow]
    else
      let n := wordLength (c :: rest) - 1
      .ok (c :: rest.take n) :: find (rest.drop n)
termination_by s => s.length
decreasing_by exact Nat.lt_succ_of_le (List.drop_sublist _ _).length_le

end CausalLM.Words
