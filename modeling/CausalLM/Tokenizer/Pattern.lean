/-!
# Tokenizer.Pattern — patterns and the order in which they match

A pattern is matched with backtracking: of its alternatives the first that leads to a match counts, and a repetition
takes as much as it can before it gives some back.  So a pattern matches at the front of a text in several ways that
come in an order (`lengths`), and the first of them is the match.
-/
namespace CausalLM

/-- **A pattern.**  `run` is one character of a class or more, and `notAhead` matches no text, but only where none of the
class follows. -/
inductive Pattern where
  | text (x : List Char)
  | sequence (p q : Pattern)
  | either (p q : Pattern)
  | optional (p : Pattern)
  | run (k : Char → Bool)
  | notAhead (k : Char → Bool)

namespace Pattern

/-- Why a search is given up: too many branches are open, or it has gone back too often. -/
inductive Failure where
  | stackOverflow | backtrackLimit
  deriving DecidableEq, Repr

/-- One character of a class or more, the longest run first. -/
def runLengths (k : Char → Bool) : List Char → List Nat
  | [] => []
  | c :: rest => if k c then (runLengths k rest).map (· + 1) ++ [1] else []

/-- **How long a pattern matches** at the front of a text, in the order in which it is tried. -/
def lengths : Pattern → List Char → List Nat
  | text x, s => if x.isPrefixOf s then [x.length] else []
  | sequence p q, s => (p.lengths s).flatMap fun n => (q.lengths (s.drop n)).map (n + ·)
  | either p q, s => p.lengths s ++ q.lengths s
  | optional p, s => p.lengths s ++ [0]
  | run k, s => runLengths k s
  | notAhead k, s => if s.head?.any k then [] else [0]

/-- The length of the match at the front. -/
def length? (p : Pattern) (s : List Char) : Option Nat := (p.lengths s).head?

/-- **The first match in a text**, and what stands after it. -/
def find? (p : Pattern) : List Char → Option (List Char × List Char)
  | [] => (p.length? []).map fun _ => ([], [])
  | c :: rest => match p.length? (c :: rest) with
    | some n => some ((c :: rest).take n, (c :: rest).drop n)
    | none => find? p rest

end Pattern
end CausalLM
