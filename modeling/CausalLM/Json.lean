import CausalLM.Number.Double
import CausalLM.Text.Digits
/-!
# Json — reading JSON text

`Json.ofString?` reads one JSON document.  Numbers keep the way they were written: a whole number that fits in 64
bits stays whole, anything with a point or an exponent, and any whole number beyond 64 bits, is binary64.  Arrays and
objects may nest 127 deep.  The members of an object keep their order and their repetitions.
-/
namespace CausalLM

/-- **A JSON number**, by the way it was written. -/
inductive Json.Number where
  /-- A whole number from zero to the largest 64-bit word. -/
  | natural (n : Nat)
  /-- Minus a whole number from one to `2 ^ 63`. -/
  | negative (n : Nat)
  | floating (x : Double)
  deriving DecidableEq, Repr

/-- **A JSON value.** -/
inductive Json where
  | null
  | bool (b : Bool)
  | number (n : Json.Number)
  | string (s : String)
  | array (items : List Json)
  | object (members : List (String × Json))
  deriving Repr, Inhabited

namespace Json

def Number.toDouble : Number → Double
  | natural n => Double.ofNat n
  | negative n => (Double.ofNat n).neg
  | floating x => x

/-- What is left of `s` after something was read from it. -/
abbrev Rest (s : List Char) := { r : List Char // r.length < s.length }

/-- The rest of a shorter text is a rest of the longer one. -/
def Rest.weaken {s t : List Char} (r : Rest t) (h : t.length ≤ s.length) : Rest s := ⟨r.1, Nat.lt_of_lt_of_le r.2 h⟩

def isBlank (c : Char) : Bool := c == ' ' || c == '\n' || c == '\t' || c == '\r'

def skipBlanks (s : List Char) : List Char := s.dropWhile isBlank

theorem length_skipBlanks_le (s : List Char) : (skipBlanks s).length ≤ s.length :=
  (List.dropWhile_suffix isBlank).length_le

/-! ## Numbers -/

/-- A number being read: the digits so far as a 64-bit `significand` times ten to the `exponent`. -/
structure Digits where
  significand : Nat
  exponent : Int

/-- The nearest binary64 number to `10 ^ k`. -/
def powerOfTen (k : Nat) : Double := .ofValue (Float.ofScientific 1 false k)

/-- Divides by `10 ^ 308` until one more division finishes the scaling. -/
def scaleDown (f : Double) (k : Nat) : Double :=
  if k ≤ 308 then f / powerOfTen k
  else if f.magnitude = 0 then f
  else scaleDown (f / powerOfTen 308) (k - 308)
termination_by k

/-- Scales the significand by one power of ten; refused when the result is infinite. -/
def Digits.toDouble? (d : Digits) : Option Double :=
  let f := Double.ofNat d.significand
  if 0 ≤ d.exponent then
    if d.exponent ≤ 308 then
      let g := f * powerOfTen d.exponent.toNat
      if g.isInfinite then none else some g
    else if f.magnitude = 0 then some f else none
  else some (scaleDown f (-d.exponent).toNat)

/-- Takes one more digit if the significand stays within 64 bits. -/
def push? (significand : Nat) (c : Char) : Option Nat :=
  let n := significand * 10 + (c.toNat - 48)
  if n < 2 ^ 64 then some n else none

/-- The decimals after a point.  Once the significand is full, further digits change nothing. -/
def decimals (d : Digits) (full : Bool) : List Char → Digits × List Char
  | [] => (d, [])
  | c :: s =>
    if !c.isDigit then (d, c :: s)
    else match if full then none else push? d.significand c with
      | some n => decimals ⟨n, d.exponent - 1⟩ false s
      | none => decimals d true s

/-- The whole digits.  Once the significand is full, each further digit counts as a power of ten. -/
def whole (d : Digits) (full : Bool) : List Char → (Digits × Bool) × List Char
  | [] => ((d, full), [])
  | c :: s =>
    if !c.isDigit then ((d, full), c :: s)
    else match if full then none else push? d.significand c with
      | some n => whole ⟨n, d.exponent⟩ false s
      | none => whole ⟨d.significand, d.exponent + 1⟩ true s

/-- An exponent part, if the text goes on with one; refused when it has no digits. -/
def exponentPart (s : List Char) : Option (Option Int × List Char) :=
  match s with
  | e :: t =>
    if e == 'e' || e == 'E' then
      let (minus, t) := Digits.splitSign t
      match t.takeWhile Char.isDigit with
      | [] => none
      | ds => some (some (if minus then -(Digits.value ds : Int) else Digits.value ds), t.dropWhile Char.isDigit)
    else some (none, s)
  | [] => some (none, s)

/-- **A number without its sign.** -/
def unsignedNumber (s : List Char) : Option ((Digits × Bool) × List Char) := do
  let ((d, full), s) ← match s with
    | '0' :: c :: s => if c.isDigit then none else some ((⟨0, 0⟩, false), c :: s)
    | c :: s => if c.isDigit then some (whole ⟨0, 0⟩ false (c :: s)) else none
    | [] => none
  let (d, point, s) ← match s with
    | '.' :: c :: s => if c.isDigit then let (d, s) := decimals d false (c :: s); some (d, true, s) else none
    | ['.'] => none
    | s => some (d, false, s)
  let (e?, s) ← exponentPart s
  match e? with
  | some e => some ((⟨d.significand, d.exponent + e⟩, true), s)
  | none => some ((d, point || full), s)

/-- **The number that a text is.** -/
def Number.ofChars? : List Char → Option Number
  | '-' :: s => do
    let ((d, isFloat), rest) ← unsignedNumber s
    if !rest.isEmpty then none
    else if isFloat then some (.floating (← d.toDouble?).neg)
    else if 0 < d.significand ∧ d.significand ≤ 2 ^ 63 then some (.negative d.significand)
    else some (.floating (Double.ofNat d.significand).neg)
  | s => do
    let ((d, isFloat), rest) ← unsignedNumber s
    if !rest.isEmpty then none
    else if isFloat then some (.floating (← d.toDouble?))
    else some (.natural d.significand)

/-- A character that numbers are written with.  None may stand right behind a number. -/
def isNumeric (c : Char) : Bool := c.isDigit || c == '-' || c == '+' || c == '.' || c == 'e' || c == 'E'

/-! ## Strings -/

def hexDigit? (c : Char) : Option Nat :=
  if c.isDigit then some (c.toNat - 48)
  else if 'a' ≤ c ∧ c ≤ 'f' then some (c.toNat - 87)
  else if 'A' ≤ c ∧ c ≤ 'F' then some (c.toNat - 55)
  else none

def hex4? (a b c d : Char) : Option Nat := do
  some (((← hexDigit? a) * 16 + (← hexDigit? b)) * 256 + (← hexDigit? c) * 16 + (← hexDigit? d))

def shortEscape? : Char → Option Char
  | '"' => some '"' | '\\' => some '\\' | '/' => some '/'
  | 'b' => some '\x08' | 'f' => some '\x0c' | 'n' => some '\n' | 'r' => some '\r' | 't' => some '\t'
  | _ => none

/-- The characters of a string up to its closing quote, behind those already read, which stand in reverse, and what
follows it.  A surrogate counts only as half of a pair.  What follows stays below the `limit` of the string's value. -/
def readString (limit : Nat) (done : List Char) : (s : List Char) → s.length < limit →
    Option (String × { r : List Char // r.length < limit })
  | [], _ => none
  | '"' :: s, h => some (String.ofList done.reverse, ⟨s, by simp at h; omega⟩)
  | '\\' :: 'u' :: a :: b :: c :: d :: s, h =>
    match hex4? a b c d with
    | none => none
    | some n =>
      if n < 0xd800 ∨ 0xe000 ≤ n then readString limit (Char.ofNat n :: done) s (by simp at h; omega)
      else if 0xdc00 ≤ n then none
      else match s, h with
        | '\\' :: 'u' :: a :: b :: c :: d :: s, h =>
          match hex4? a b c d with
          | none => none
          | some m =>
            if 0xdc00 ≤ m ∧ m < 0xe000 then
              readString limit (Char.ofNat (0x10000 + (n - 0xd800) * 0x400 + (m - 0xdc00)) :: done) s
                (by simp at h; omega)
            else none
        | _, _ => none
  | '\\' :: e :: s, h => match shortEscape? e with
    | some c => readString limit (c :: done) s (by simp at h; omega)
    | none => none
  | c :: s, h => if c.toNat < 0x20 then none else readString limit (c :: done) s (by simp at h; omega)

/-! ## Values -/

/-- The value `v` if the text `c :: t` starts with `word`. -/
def readWord (word : String) (v : Json) (c : Char) (t : List Char) : Option (Json × Rest (c :: t)) :=
  if word.toList.isPrefixOf (c :: t) then some (v, ⟨t.drop (word.length - 1), Nat.lt_succ_of_le (List.drop_sublist _ _).length_le⟩) else none

/-- A value that is not an array or an object, and what follows it. -/
def readScalar (c : Char) (t : List Char) : Option (Json × Rest (c :: t)) :=
  if c = '"' then (readString (t.length + 1) [] t (Nat.lt_succ_self _)).map fun (x, r) => (string x, r)
  else if c = 'n' then readWord "null" .null c t
  else if c = 't' then readWord "true" (.bool true) c t
  else if c = 'f' then readWord "false" (.bool false) c t
  else (Number.ofChars? (c :: t.takeWhile isNumeric)).map fun n =>
    (number n, ⟨t.dropWhile isNumeric, Nat.lt_succ_of_le (List.dropWhile_suffix isNumeric).length_le⟩)

mutual

/-- One value, with `depth` levels of nesting left. -/
def readValue (depth : Nat) (s : List Char) : Option (Json × Rest s) :=
  match h : skipBlanks s with
  | [] => none
  | c :: t =>
    have ht : t.length < s.length := by
      have := length_skipBlanks_le s
      rw [h] at this
      exact this
    if c = '[' then
      if depth ≤ 1 then none
      else match h₁ : skipBlanks t with
        | [] => none
        | c₁ :: u =>
          have hu : u.length < t.length := by
            have := length_skipBlanks_le t
            rw [h₁] at this
            exact this
          if c₁ = ']' then some (array [], ⟨u, by omega⟩)
          else (readItems (depth - 1) t).map fun (items, r) => (array items, r.weaken (by omega))
    else if c = '\x7b' then
      if depth ≤ 1 then none
      else match h₁ : skipBlanks t with
        | [] => none
        | c₁ :: u =>
          have hu : u.length < t.length := by
            have := length_skipBlanks_le t
            rw [h₁] at this
            exact this
          if c₁ = '\x7d' then some (object [], ⟨u, by omega⟩)
          else (readMembers (depth - 1) t).map fun (members, r) => (object members, r.weaken (by omega))
    else (readScalar c t).map fun (v, r) => (v, r.weaken (Nat.succ_le_of_lt ht))
termination_by (s.length, 0)

/-- The items of an array up to its closing bracket. -/
def readItems (depth : Nat) (s : List Char) : Option (List Json × Rest s) :=
  match readValue depth s with
  | none => none
  | some (v, r) =>
    match h : skipBlanks r.1 with
    | [] => none
    | c :: t =>
      have ht : t.length < s.length := by
        have := length_skipBlanks_le r.1
        have := r.2
        simp_all
        omega
      if c = ']' then some ([v], ⟨t, ht⟩)
      else if c = ',' then
        (readItems depth t).map fun (vs, r) => (v :: vs, r.weaken (Nat.le_of_lt ht))
      else none
termination_by (s.length, 1)

/-- The members of an object up to its closing brace. -/
def readMembers (depth : Nat) (s : List Char) : Option (List (String × Json) × Rest s) :=
  match h : skipBlanks s with
  | [] => none
  | q :: t =>
    have ht : t.length < s.length := by
      have := length_skipBlanks_le s
      rw [h] at this
      exact this
    if q ≠ '"' then none
    else match readString s.length [] t ht with
      | none => none
      | some (name, u) =>
        match h₀ : skipBlanks u.1 with
        | [] => none
        | c :: w =>
          have hw : w.length < s.length := by
            have := length_skipBlanks_le u.1
            have := u.2
            simp_all
            omega
          if c ≠ ':' then none
          else match readValue depth w with
            | none => none
            | some (v, r) =>
              match h₁ : skipBlanks r.1 with
              | [] => none
              | c₁ :: x =>
                have hx : x.length < s.length := by
                  have := length_skipBlanks_le r.1
                  have := r.2
                  simp_all
                  omega
                if c₁ = '\x7d' then some ([(name, v)], ⟨x, hx⟩)
                else if c₁ = ',' then
                  (readMembers depth x).map fun (ms, r) => ((name, v) :: ms, r.weaken (Nat.le_of_lt hx))
                else none
termination_by (s.length, 1)
decreasing_by all_goals (simp_all; omega)

end

/-- **The document a text holds**: one value, blanks around it and nothing else. -/
def ofString? (s : String) : Option Json :=
  match readValue 128 s.toList with
  | some (v, r) => if (skipBlanks r.1).isEmpty then some v else none
  | none => none

/-! ## Looking into a value -/

/-- The member of an object with this name; of several the last. -/
def get? : Json → String → Option Json
  | object members, name => (members.reverse.find? (·.1 == name)).map (·.2)
  | _, _ => none

/-- The number as an unsigned word, if it was written as one. -/
def nat? : Json → Option Nat
  | number (.natural n) => some n
  | _ => none

/-- The number as a signed word, if it was written as one. -/
def int? : Json → Option Int
  | number (.natural n) => if n < 2 ^ 63 then some n else none
  | number (.negative n) => some (-(n : Int))
  | _ => none

/-- Any number, in binary64. -/
def double? : Json → Option Double
  | number n => some n.toDouble
  | _ => none

def string? : Json → Option String
  | string s => some s
  | _ => none

def bool? : Json → Option Bool
  | bool b => some b
  | _ => none

def items? : Json → Option (List Json)
  | array items => some items
  | _ => none

def members? : Json → Option (List (String × Json))
  | object members => some members
  | _ => none

end Json
end CausalLM
