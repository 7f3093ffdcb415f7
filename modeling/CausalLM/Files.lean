import CausalLM.Bytes
import CausalLM.Error
/-!
# Files — what a program may read

The library reads whole files by path.  Where the files come from is not its concern: a path leads to bytes or
nowhere.
-/
namespace CausalLM

/-- **The files that can be read**: the bytes a path leads to. -/
abbrev Files := String → Option Bytes

def Files.read (files : Files) (path : String) : Except Error Bytes :=
  match files path with
  | some bytes => .ok bytes
  | none => .error .noSuchFile

end CausalLM
