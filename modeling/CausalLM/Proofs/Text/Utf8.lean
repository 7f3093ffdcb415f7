import CausalLM.Text.Utf8
/-!
# Proofs.Text.Utf8 — reading text piece by piece

Bytes may arrive in pieces, and a piece may end inside a character.  What stands at the front of some bytes is either
decided, and then no further bytes change it, or the bytes are at most three and all there is (`front_append`,
`front_bounds`).  So draining a piece and reading what it held back together with the rest is reading everything at
once (`lossy_append`).
-/
namespace CausalLM.Utf8

/-- **A decided front stays when more bytes come.** -/
theorem front_append {b : UInt8} {rest : List UInt8} (h : front b rest ≠ .incomplete) (more : List UInt8) :
    front b (rest ++ more) = front b rest := by
  rcases rest with _ | ⟨b₁, _ | ⟨b₂, _ | ⟨b₃, rest⟩⟩⟩
  · unfold front at h ⊢
    grind
  · unfold front at h ⊢
    grind
  · unfold front at h ⊢
    grind
  · rfl

/-- **A decided front stands inside the bytes there are**, and an undecided one is at most three bytes. -/
theorem front_bounds (b : UInt8) (rest : List UInt8) :
    match front b rest with
    | .scalar _ size => size - 1 ≤ rest.length
    | .invalid size => size - 1 ≤ rest.length
    | .incomplete => rest.length ≤ 2 := by
  rcases rest with _ | ⟨b₁, _ | ⟨b₂, _ | ⟨b₃, rest⟩⟩⟩
  · unfold front
    grind
  · unfold front
    grind
  · unfold front
    grind
  · unfold front
    grind

theorem size_le_of_scalar {b : UInt8} {rest : List UInt8} {c : Char} {size : Nat}
    (h : front b rest = .scalar c size) : size - 1 ≤ rest.length := by
  have := front_bounds b rest
  rwa [h] at this

theorem size_le_of_invalid {b : UInt8} {rest : List UInt8} {size : Nat} (h : front b rest = .invalid size) :
    size - 1 ≤ rest.length := by
  have := front_bounds b rest
  rwa [h] at this

theorem length_le_of_incomplete {b : UInt8} {rest : List UInt8} (h : front b rest = .incomplete) :
    rest.length ≤ 2 := by
  have := front_bounds b rest
  rwa [h] at this

/-- **Reading in two pieces is reading at once**: what draining the first piece gives stays, and what it holds back is
read together with the second. -/
theorem lossy_append (bytes more : List UInt8) :
    lossy (bytes ++ more) = (drain bytes).1 ++ lossy ((drain bytes).2 ++ more) := by
  -- by the steps of the drain: it stops only at an undecided front, and a decided one stays
  fun_induction drain bytes with
  | case1 => rfl
  | case2 b rest c size h cs held hd ih =>
    rw [hd] at ih
    rw [List.cons_append, lossy_cons, front_append (by rw [h]; simp) more, h]
    simp only
    rw [List.drop_append_of_le_length (size_le_of_scalar h), ih]
    rfl
  | case3 b rest size h cs held hd ih =>
    rw [hd] at ih
    rw [List.cons_append, lossy_cons, front_append (by rw [h]; simp) more, h]
    simp only
    rw [List.drop_append_of_le_length (size_le_of_invalid h), ih]
    rfl
  | case4 b rest h => rfl

/-- What draining holds back is at most three bytes. -/
theorem length_drain_le (bytes : List UInt8) : (drain bytes).2.length ≤ 3 := by
  fun_induction drain bytes with
  | case1 => decide
  | case2 b rest c size h cs held hd ih => rwa [hd] at ih
  | case3 b rest size h cs held hd ih => rwa [hd] at ih
  | case4 b rest h => exact Nat.succ_le_succ (length_le_of_incomplete h)

/-! ## The bytes of a text -/

theorem toList_loop (b : ByteArray) (i : Nat) (l : List UInt8) :
    ByteArray.toList.loop b i l = l.reverse ++ b.data.toList.drop i := by
  induction i, l using ByteArray.toList.loop.induct b with
  | case1 i l h ih =>
    have hi : i < b.data.toList.length := h
    have hget : b.get! i = b.data.toList[i] := by
      show b.data[i]! = _
      rw [getElem!_pos b.data i h, Array.getElem_toList]
    rw [ByteArray.toList.loop, if_pos h, ih, List.reverse_cons, List.append_assoc, List.drop_eq_getElem_cons hi, hget]
    rfl
  | case2 i l h =>
    have hi : b.data.toList.length ≤ i := Nat.le_of_not_lt h
    rw [ByteArray.toList.loop, if_neg h, List.drop_eq_nil_of_le hi, List.append_nil]

theorem ofString_eq (s : String) : ofString s = s.toByteArray.data.toList := by
  rw [ofString, ByteArray.toList, toList_loop]
  rfl

@[simp] theorem length_ofString (s : String) : (ofString s).length = s.utf8ByteSize := by
  rw [ofString_eq]
  rfl

end CausalLM.Utf8
