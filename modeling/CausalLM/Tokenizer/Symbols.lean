/-!
# Tokenizer.Symbols — bytes as printable characters

Pieces of words are texts, so each of the 256 bytes is written as one visible character: a printable byte as itself,
the others in order as the characters from U+0100 on.
-/
namespace CausalLM.Symbols

/-- **The character of a byte.**  Bytes 0 to 32, 127 to 160 and 173 are not printable. -/
def ofByte (b : UInt8) : Char :=
  let n := b.toNat
  if n < 33 then Char.ofNat (256 + n)
  else if n < 127 then Char.ofNat n
  else if n < 161 then Char.ofNat (162 + n)
  else if n = 173 then Char.ofNat 323
  else Char.ofNat n

def toByte? (c : Char) : Option UInt8 :=
  let n := c.toNat
  if 33 ≤ n ∧ n < 127 ∨ 161 ≤ n ∧ n < 256 ∧ n ≠ 173 then some (UInt8.ofNat n)
  else if 256 ≤ n ∧ n < 289 then some (UInt8.ofNat (n - 256))
  else if 289 ≤ n ∧ n < 323 then some (UInt8.ofNat (n - 162))
  else if n = 323 then some 173
  else none

/-- Each byte is read back from its character. -/
theorem toByte?_ofByte (b : UInt8) : toByte? (ofByte b) = some b := by
  have h : ∀ i : Fin 256, toByte? (ofByte ⟨⟨i⟩⟩) = some ⟨⟨i⟩⟩ := by decide +kernel
  exact h b.toBitVec.toFin

end CausalLM.Symbols
