import CausalLM.Error
import CausalLM.Text.Lowercase
import CausalLM.Text.Utf8
import CausalLM.Tokenizer.Merge
import CausalLM.Tokenizer.Specials
import CausalLM.Tokenizer.Symbols
import CausalLM.Tokenizer.Words
import CausalLM.Vocabulary
/-!
# Tokenizer — from text to tokens and back

Byte-level byte-pair encoding.  Special tokens are cut out of the text first; what is left is cut into words, the
bytes of each word are written as symbols, and the symbols are joined by the ranks of the vocabulary.  A piece that is
no token falls apart into its symbols, and a symbol that is no token is dropped.
-/
namespace CausalLM

/-- **A tokenizer**: a vocabulary and the tables made from it. -/
structure Tokenizer where
  vocabulary : Vocabulary
  /-- The place of a text in the vocabulary; of several the last. -/
  index : Std.HashMap String Nat
  ranks : Merge.Ranks
  specials : Specials
  /-- How words are looked for. -/
  find : Words.Finder

namespace Tokenizer

/-- The places of texts; of several the last. -/
def indexOf (v : Vocabulary) : Std.HashMap String Nat :=
  v.entries.foldl (fun index (text, i) => index.insert text i) ∅

/-- The tokenizer of a vocabulary, with any search for words. -/
def searching (find : Words.Finder) (v : Vocabulary) : Tokenizer where
  vocabulary := v
  index := indexOf v
  ranks := Merge.ranksOf v.merges
  specials := .ofVocabulary v
  find := find

/-- **The tokenizer of a vocabulary.** -/
abbrev ofVocabulary (v : Vocabulary) : Tokenizer := searching Words.find v

/-- Accepts the name of a tokenizer model, in any case, if it is byte-level byte-pair encoding. -/
def checkModel (name : String) : Except Error Unit :=
  let name := Text.lowercase name
  if name = "gpt2" ∨ name = "bpe" ∨ name = "bytelevelbpe" then .ok ()
  else .error (.formatMismatch ("unsupported tokenizer model '" ++ name ++ "'"))

def id? (t : Tokenizer) (text : String) : Option Token := t.index[text]?.map .ofIndex

def token? (t : Tokenizer) (token : Token) : Option String := t.vocabulary.token? token

/-- The symbols of a word, one per byte. -/
def symbols (word : List Char) : List String :=
  (Utf8.encode word).map fun b => String.singleton (Symbols.ofByte b)

/-- The tokens of a piece: the one it is, or those of its symbols. -/
def encodePiece (t : Tokenizer) (piece : String) : List Token :=
  match t.id? piece with
  | some token => [token]
  | none => piece.toList.filterMap fun c => t.id? (String.singleton c)

def encodeWord (t : Tokenizer) (word : List Char) : List Token :=
  (Merge.all t.ranks (symbols word)).flatMap t.encodePiece

/-- The tokens of a text without special tokens.  A word on which the search was given up is dropped. -/
def encodePlain (t : Tokenizer) (text : List Char) : List Token := (t.find text).flatMap fun
  | .ok word => t.encodeWord word
  | .error _ => []

def encodeChars (t : Tokenizer) (text : List Char) : List Token :=
  match h : t.specials.next? text with
  | none => t.encodePlain text
  | some (before, token, after) =>
    have : after.length < text.length := t.specials.length_next?_lt text h
    t.encodePlain before ++ token :: encodeChars t after
termination_by text.length

/-- **The tokens of a text.** -/
def encode (t : Tokenizer) (text : String) : List Token := t.encodeChars text.toList

/-- **The bytes a token stands for**; none outside the vocabulary. -/
def tokenBytes (t : Tokenizer) (token : Token) : List UInt8 :=
  match t.token? token with
  | none => []
  | some text =>
    if (t.vocabulary.type token).isSpecial then Utf8.ofString text
    else text.toList.flatMap fun c => match Symbols.toByte? c with
      | some b => [b]
      | none => String.utf8EncodeChar c

/-- **The text of tokens**, broken characters replaced. -/
def decode (t : Tokenizer) (tokens : List Token) : String := Utf8.toStringLossy (tokens.flatMap t.tokenBytes)

end Tokenizer
end CausalLM
