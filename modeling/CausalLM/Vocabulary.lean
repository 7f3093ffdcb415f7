import CausalLM.Number.Word
import CausalLM.Token
/-!
# Vocabulary — the tokens of a model and what they stand for

A vocabulary is a list of texts; the token of a text is its place in the list.  Each token has a type: control and
user-defined tokens stand for their text as it is, all others for bytes written in printable symbols.
-/
namespace CausalLM

/-- **The type of a token.** -/
inductive TokenType where
  | normal | unknown | control | userDefined | unused | byte
  deriving DecidableEq, Repr, Inhabited

namespace TokenType

/-- The number that stands for the type in a container. -/
def id : TokenType → Nat
  | normal => 1 | unknown => 2 | control => 3 | userDefined => 4 | unused => 5 | byte => 6

/-- The type a number stands for; numbers that stand for none are normal. -/
def ofId : Int → TokenType
  | 2 => unknown
  | 3 => control
  | 4 => userDefined
  | 5 => unused
  | 6 => byte
  | _ => normal

def isSpecial : TokenType → Bool
  | control | userDefined => true
  | _ => false

end TokenType

/-- **A vocabulary.** -/
structure Vocabulary where
  tokens : Array String
  /-- One type per token. -/
  types : Array TokenType
  /-- Pairs of pieces to merge, written with a blank between them, the most urgent first. -/
  merges : List String
  /-- The token that begins a text. -/
  bos : Token
  /-- The token that ends a text. -/
  eos : Token
  deriving Inhabited

namespace Vocabulary

/-- A vocabulary of normal tokens without merges. -/
def ofTokens (tokens : List String) : Vocabulary where
  tokens := tokens.toArray
  types := Array.replicate tokens.length .normal
  merges := []
  bos := ⟨1⟩
  eos := ⟨2⟩

/-- The vocabulary with these types; tokens beyond them are normal. -/
def withTypes (v : Vocabulary) (types : List TokenType) : Vocabulary :=
  { v with types := ((types ++ List.replicate v.tokens.size TokenType.normal).take v.tokens.size).toArray }

def withMerges (v : Vocabulary) (merges : List String) : Vocabulary := { v with merges }

def size (v : Vocabulary) : Nat := v.tokens.size

def token? (v : Vocabulary) (t : Token) : Option String := t.index?.bind fun i => v.tokens[i]?

def entries (v : Vocabulary) : List (String × Nat) := v.tokens.toList.zipIdx

/-- The token of a text; of several the last. -/
def id? (v : Vocabulary) (text : String) : Option Token :=
  (v.entries.reverse.find? (·.1 == text)).map fun entry => .ofIndex entry.2

/-- The type of a token; unknown outside the vocabulary. -/
def type (v : Vocabulary) (t : Token) : TokenType := (t.index?.bind fun i => v.types[i]?).getD .unknown

/-- The type at a place is special. -/
def isSpecialAt (v : Vocabulary) (i : Nat) : Bool := (v.types[i]?.map TokenType.isSpecial).getD false

/-- The tokens that are matched in a text as they are, in order. -/
def specials (v : Vocabulary) : List (String × Token) :=
  v.entries.filterMap fun (text, i) => if text ≠ "" ∧ v.isSpecialAt i then some (text, .ofIndex i) else none

theorem ne_of_mem_specials {v : Vocabulary} {entry : String × Token} (h : entry ∈ v.specials) : entry.1 ≠ "" := by
  obtain ⟨⟨text, i⟩, -, h⟩ := List.mem_filterMap.1 h
  dsimp only at h
  split at h
  · rename_i hspecial
    cases h
    exact hspecial.1
  · cases h

/-- Bytes that one token or merge costs across all tables. -/
def entryBytes : Nat := 320

/-- **A bound on the bytes the tables of a tokenizer hold**, from the counts and text lengths of tokens and merges. -/
def heapBound (tokens tokenText merges mergeText : Nat) : Nat :=
  Word.satAdd
    (Word.satAdd (Word.satMul tokens entryBytes) (Word.satMul tokenText 3))
    (Word.satAdd (Word.satMul merges entryBytes) (Word.satMul mergeText 2))

end Vocabulary
end CausalLM
