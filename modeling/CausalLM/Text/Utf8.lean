/-!
# Text.Utf8 — reading text from bytes that may be broken

Bytes are read as UTF-8 one character at a time.  Where no character starts, the longest stretch that could have
begun one is replaced by a single U+FFFD.  A stretch at the very end that further bytes could still complete is
`incomplete`: `lossy` replaces it too, `drain` hands it back to wait for more.
-/
namespace CausalLM.Utf8

/-- **What stands at the front of some bytes.** -/
inductive Front where
  /-- A character and the number of its bytes. -/
  | scalar (c : Char) (size : Nat)
  /-- So many bytes that begin no character, whatever follows. -/
  | invalid (size : Nat)
  /-- All the bytes there are, a proper beginning of some character. -/
  | incomplete
  deriving Repr

def isContinuation (b : UInt8) : Bool := 0x80 ≤ b.toNat && b.toNat < 0xc0

/-- The character of a code point built from lead bits and six-bit groups. -/
def join (lead : Nat) (groups : List UInt8) : Char :=
  Char.ofNat (groups.foldl (fun n b => n * 64 + b.toNat % 64) lead)

/-- The least and the largest second byte that may follow a three- or four-byte lead. -/
def secondRange (lead : Nat) : Nat × Nat :=
  if lead = 0xe0 then (0xa0, 0xbf)
  else if lead = 0xed then (0x80, 0x9f)
  else if lead = 0xf0 then (0x90, 0xbf)
  else if lead = 0xf4 then (0x80, 0x8f)
  else (0x80, 0xbf)

def within (r : Nat × Nat) (b : UInt8) : Bool := r.1 ≤ b.toNat && b.toNat ≤ r.2

/-- What stands at the front of `b :: rest`. -/
def front (b : UInt8) (rest : List UInt8) : Front :=
  let n := b.toNat
  if n < 0x80 then .scalar (Char.ofNat n) 1
  else if n < 0xc2 then .invalid 1
  else if n < 0xe0 then
    match rest with
    | [] => .incomplete
    | b₁ :: _ => if isContinuation b₁ then .scalar (join (n % 32) [b₁]) 2 else .invalid 1
  else if n < 0xf0 then
    match rest with
    | [] => .incomplete
    | b₁ :: rest =>
      if !within (secondRange n) b₁ then .invalid 1
      else match rest with
        | [] => .incomplete
        | b₂ :: _ => if isContinuation b₂ then .scalar (join (n % 16) [b₁, b₂]) 3 else .invalid 2
  else if n < 0xf5 then
    match rest with
    | [] => .incomplete
    | b₁ :: rest =>
      if !within (secondRange n) b₁ then .invalid 1
      else match rest with
        | [] => .incomplete
        | b₂ :: rest =>
          if !isContinuation b₂ then .invalid 2
          else match rest with
            | [] => .incomplete
            | b₃ :: _ => if isContinuation b₃ then .scalar (join (n % 8) [b₁, b₂, b₃]) 4 else .invalid 3
  else .invalid 1

/-- U+FFFD, which stands for bytes that are no character. -/
def replacement : Char := '\uFFFD'

/-- The characters that are certain, and the bytes at the end that more bytes could complete. -/
def drain : List UInt8 → List Char × List UInt8
  | [] => ([], [])
  | b :: rest => match front b rest with
    | .scalar c size => let (cs, held) := drain (rest.drop (size - 1)); (c :: cs, held)
    | .invalid size => let (cs, held) := drain (rest.drop (size - 1)); (replacement :: cs, held)
    | .incomplete => ([], b :: rest)
termination_by l => l.length
decreasing_by all_goals exact Nat.lt_succ_of_le (List.drop_sublist _ _).length_le

/-- Reads on behind the characters already read, which stand in reverse. -/
def lossyOnto (done : List Char) : List UInt8 → List Char
  | [] => done.reverse
  | b :: rest => match front b rest with
    | .scalar c size => lossyOnto (c :: done) (rest.drop (size - 1))
    | .invalid size => lossyOnto (replacement :: done) (rest.drop (size - 1))
    | .incomplete => (replacement :: done).reverse
termination_by l => l.length
decreasing_by all_goals exact Nat.lt_succ_of_le (List.drop_sublist _ _).length_le

/-- The characters of the bytes, with a replacement for every stretch that is none. -/
def lossy (l : List UInt8) : List Char := lossyOnto [] l

theorem lossyOnto_append (xs ys : List Char) (l : List UInt8) :
    lossyOnto (xs ++ ys) l = ys.reverse ++ lossyOnto xs l := by
  fun_induction lossyOnto xs l with
  | case1 => simp [lossyOnto]
  | case2 done b rest c size h ih => rw [lossyOnto, h]; exact ih
  | case3 done b rest size h ih => rw [lossyOnto, h]; exact ih
  | case4 done b rest h => rw [lossyOnto, h]; simp

@[simp] theorem lossy_nil : lossy [] = [] := by simp [lossy, lossyOnto]

/-- One step of reading: what stands at the front, then the rest. -/
theorem lossy_cons (b : UInt8) (rest : List UInt8) :
    lossy (b :: rest) = match front b rest with
      | .scalar c size => c :: lossy (rest.drop (size - 1))
      | .invalid size => replacement :: lossy (rest.drop (size - 1))
      | .incomplete => [replacement] := by
  unfold lossy
  rw [lossyOnto]
  cases front b rest with
  | scalar c size => exact lossyOnto_append [] [c] _
  | invalid size => exact lossyOnto_append [] [replacement] _
  | incomplete => rfl

def encode (cs : List Char) : List UInt8 := cs.flatMap String.utf8EncodeChar

def ofString (s : String) : List UInt8 := s.toByteArray.toList

/-- The text of some bytes, broken ones replaced. -/
def toStringLossy (l : List UInt8) : String := String.ofList (lossy l)

end CausalLM.Utf8
