import CausalLM.Error
import CausalLM.Number.Word
/-!
# Container.ElementType — how the elements of a tensor are stored

A tensor in a container names its element type by a number.  Plain types hold one element per block, quantized ones
32 or 256.
-/
namespace CausalLM.Container

/-- **An element type.** -/
inductive ElementType where
  | f32 | f16 | q4_0 | q4_1 | q5_0 | q5_1 | q8_0 | q8_1
  | q2_K | q3_K | q4_K | q5_K | q6_K | q8_K
  | i8 | i16 | i32 | i64 | f64 | bf16
  deriving DecidableEq, Repr, Inhabited

namespace ElementType

/-- The number that stands for the type in a container. -/
def id : ElementType → Nat
  | f32 => 0 | f16 => 1 | q4_0 => 2 | q4_1 => 3 | q5_0 => 6 | q5_1 => 7 | q8_0 => 8 | q8_1 => 9
  | q2_K => 10 | q3_K => 11 | q4_K => 12 | q5_K => 13 | q6_K => 14 | q8_K => 15
  | i8 => 24 | i16 => 25 | i32 => 26 | i64 => 27 | f64 => 28 | bf16 => 30

/-- The type's name, as messages show it. -/
def name : ElementType → String
  | f32 => "F32" | f16 => "F16" | q4_0 => "Q4_0" | q4_1 => "Q4_1" | q5_0 => "Q5_0" | q5_1 => "Q5_1"
  | q8_0 => "Q8_0" | q8_1 => "Q8_1" | q2_K => "Q2_K" | q3_K => "Q3_K" | q4_K => "Q4_K" | q5_K => "Q5_K"
  | q6_K => "Q6_K" | q8_K => "Q8_K" | i8 => "I8" | i16 => "I16" | i32 => "I32" | i64 => "I64"
  | f64 => "F64" | bf16 => "BF16"

/-- Every type, by ascending number. -/
def all : List ElementType :=
  [f32, f16, q4_0, q4_1, q5_0, q5_1, q8_0, q8_1, q2_K, q3_K, q4_K, q5_K, q6_K, q8_K, i8, i16, i32, i64, f64, bf16]

def ofId? (n : Nat) : Option ElementType := all.find? (·.id == n)

/-- The type a number stands for; an unknown number is a format mismatch. -/
def ofId (n : Nat) : Except Error ElementType :=
  match ofId? n with
  | some t => .ok t
  | none => .error (.formatMismatch ("unknown ggml type " ++ toString n))

def blockSize : ElementType → Nat
  | q4_0 | q4_1 | q5_0 | q5_1 | q8_0 | q8_1 => 32
  | q2_K | q3_K | q4_K | q5_K | q6_K | q8_K => 256
  | _ => 1

def blockBytes : ElementType → Nat
  | i8 => 1
  | f16 | bf16 | i16 => 2
  | f32 | i32 => 4
  | i64 | f64 => 8
  | q4_0 => 18 | q4_1 => 20 | q5_0 => 22 | q5_1 => 24 | q8_0 => 34 | q8_1 => 36
  | q2_K => 84 | q3_K => 110 | q4_K => 144 | q5_K => 176 | q6_K => 210 | q8_K => 292

/-- Bytes that hold so many elements, in whole blocks; stops at the largest word. -/
def bytesFor (t : ElementType) (elements : Nat) : Nat :=
  Word.satMul (Word.ceilDiv elements t.blockSize) t.blockBytes

theorem ofId?_id (t : ElementType) : ofId? t.id = some t := by cases t <;> rfl

end ElementType
end CausalLM.Container
