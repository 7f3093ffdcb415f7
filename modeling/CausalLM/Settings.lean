import CausalLM.Files
import CausalLM.Number.Word
import CausalLM.Text.Digits
/-!
# Settings — what the environment says

Variables set the number of threads, a seed, a number of tokens, and the directories where models are looked for.  A
variable that is unset, or does not read as what it should be, is as if it were not there.
-/
namespace CausalLM

/-- **The settings of the environment.** -/
structure Settings where
  threads : Option Nat
  seed : Option Nat
  modelPaths : List String
  maxTokens : Option Nat
  deriving DecidableEq, Repr

namespace Settings

/-- Where models are looked for if nothing is said. -/
def defaultModels : String := "~/.cache/llmodel/models"

/-- A whole number in decimal digits, possibly behind a plus sign, that fits in a word. -/
def readNat (s : String) : Option Nat :=
  let digits := match s.toList with
    | '+' :: rest => rest
    | l => l
  (Digits.read? digits).bind Word.checked

/-- One path behind another.  A path from the root stands alone; a path without anything behind it ends in a slash. -/
def joinPath (base path : String) : String :=
  if path.startsWith "/" then path
  else if base.isEmpty || base.endsWith "/" then base ++ path
  else base ++ "/" ++ path

def expandHome (home : Option String) (path : String) : String :=
  match home, path.toList with
  | some home, '~' :: '/' :: rest => joinPath home (String.ofList rest)
  | _, _ => path

def splitPaths (s : String) : List String := (s.splitOn ":").filter (· ≠ "")

/-- **The settings that variables give.** -/
def ofVariables (lookup : String → Option String) (home : Option String) : Settings where
  threads := ((lookup "LLMODEL_THREADS").bind readNat).filter (0 < ·)
  seed := (lookup "LLMODEL_SEED").bind readNat
  modelPaths := (splitPaths ((lookup "LLMODEL_MODELS").getD defaultModels)).map (expandHome home)
  maxTokens := (lookup "LLMODEL_MAX_TOKENS").bind readNat

/-- Where a model of this name may be: as a path, or in a model directory, possibly with the ending left out. -/
def candidates (s : Settings) (name : String) : List String :=
  name :: s.modelPaths.flatMap fun dir => [joinPath dir name, joinPath dir (name ++ ".gguf")]

/-- **The path of a model**: the first candidate that is a file. -/
def resolve (s : Settings) (isFile : String → Bool) (name : String) : Option String := (s.candidates name).find? isFile

end Settings
end CausalLM
