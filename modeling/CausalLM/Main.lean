import CausalLM.CommandLine.Session
/-!
# Main — the program

Looks up the environment and the model file, runs a session and shows its outcome.
-/
open CausalLM CommandLine

def sessionVariables : List String :=
  ["LLMODEL_THREADS", "LLMODEL_SEED", "LLMODEL_MODELS", "LLMODEL_MAX_TOKENS"]

/-- The first of the paths that can be read, with its bytes. -/
def firstFile : List String → IO (Option (String × Bytes))
  | [] => return none
  | path :: rest => do
    try return some (path, (← IO.FS.readBinFile path).toList)
    catch _ => firstFile rest

def main (arguments : List String) : IO UInt32 := do
  let mut found : List (String × String) := []
  for name in sessionVariables do
    if let some value ← IO.getEnv name then found := (name, value) :: found
  let home := (← IO.getEnv "HOME").filter (· ≠ "")
  let seed ← IO.getRandomBytes 8
  let table := found
  let world : World :=
    { lookup := fun name => table.lookup name
      home := home
      files := fun _ => none
      entropy := UInt64.ofNat (Bytes.toNat seed.toList) }
  let file ← firstFile (paths world arguments)
  let world := { world with files := fun path => (file.filter (·.1 == path)).map (·.2) }
  let outcome := session world arguments
  IO.print outcome.output
  if let some message := outcome.failure then IO.eprintln ("Error: " ++ message)
  return UInt32.ofNat outcome.status
