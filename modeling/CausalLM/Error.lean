/-!
# Error — what can go wrong, and how it is worded

Every fallible operation of the library ends in one of nine kinds of failure.  Two of them, `notLoaded` and
`notReady`, say that the caller asked too early; the others come from data, from limits or from the machine.  The
wording of each kind is `Error.message`, and nothing else in the library words a failure of its own.
-/
namespace CausalLM

/-- **A failure.**  A constructor carries what its message needs; `detail` is the part that names the exact cause. -/
inductive Error where
  /-- The bytes are no container or model this operation understands. -/
  | formatMismatch (detail : String)
  /-- The file system refused, in its own words. -/
  | io (detail : String)
  /-- A buffer of `requested` bytes could not be had. -/
  | outOfMemory (requested : Nat)
  /-- There is no room for `requested` more tokens beside the `evaluated` ones in `capacity` positions. -/
  | contextOverflow (evaluated requested capacity : Nat)
  /-- The operation needs a model and there is none. -/
  | notLoaded
  /-- The operation needs logits and no token has been evaluated. -/
  | notReady
  /-- A saved state is damaged or belongs to another model. -/
  | corruptState (detail : String)
  /-- No registered backend takes the file. -/
  | noMatch (path : String)
  /-- A setting is out of its range. -/
  | config (detail : String)
  deriving DecidableEq, Repr, Inhabited

namespace Error

def message : Error → String
  | formatMismatch detail => "format mismatch: " ++ detail
  | io detail => "i/o failure: " ++ detail
  | outOfMemory requested => "out of memory: failed to allocate " ++ toString requested ++ " bytes"
  | contextOverflow evaluated requested capacity =>
    "context overflow: " ++ toString evaluated ++ " evaluated + " ++ toString requested ++
      " requested exceeds context length " ++ toString capacity
  | notLoaded => "no model loaded"
  | notReady => "no logits available: evaluate at least one token first"
  | corruptState detail => "corrupt state snapshot: " ++ detail
  | noMatch path => "unsupported model format: " ++ path
  | config detail => "invalid configuration: " ++ detail

/-- The call was made before its precondition held. -/
def isContractViolation : Error → Bool
  | notLoaded | notReady => true
  | _ => false

/-- The caller can go on without mending its own code. -/
def isRecoverable (e : Error) : Bool := !e.isContractViolation

/-- What the file system says of a path that leads nowhere. -/
def noSuchFile : Error := io "No such file or directory (os error 2)"

end Error
end CausalLM
