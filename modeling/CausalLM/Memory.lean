import CausalLM.Error
import CausalLM.Number.Single
import CausalLM.Number.Word
/-!
# Memory — buffers of numbers

Activations, logits and cache rows are vectors of binary32 numbers.  A buffer is had whole and zeroed, or not at all:
asking for more bytes than a process can address is the one failure that does not depend on the machine's load.
-/
namespace CausalLM

abbrev Vec := List Single

namespace Memory

def singleBytes : Nat := 4

/-- The bytes a process can address. -/
def addressable : Nat := 2 ^ 47

/-- A buffer of `count` numbers can be had. -/
def fits (count : Nat) : Bool := count * singleBytes < addressable

/-- A zeroed buffer of `count` numbers. -/
def zeros (count : Nat) : Except Error Vec :=
  if fits count then .ok (List.replicate count .zero)
  else .error (.outOfMemory (Word.satMul count singleBytes))

theorem fits_of_zeros {count : Nat} {v : Vec} (h : zeros count = .ok v) : fits count = true := by
  unfold zeros at h
  split at h <;> simp_all

theorem zeros_eq_ok {count : Nat} {v : Vec} (h : zeros count = .ok v) : v = List.replicate count .zero := by
  unfold zeros at h
  split at h <;> simp_all

end Memory
end CausalLM
