import OpaqueTokens.Text.Utf8

/-!
# Bytes of plain texts

A text of characters below 128 has one byte for each of them. Facts about single bytes are facts
about the 256 numbers that they stand for.
-/

namespace OpaqueTokens.Text

/-- What holds of the bytes of all numbers below 256 holds of every byte. -/
theorem forall_byte {P : UInt8 → Prop} (h : ∀ n < 256, P (UInt8.ofNat n)) (b : UInt8) : P b := by
  have hb := h b.toNat b.toNat_lt
  rwa [UInt8.ofNat_toNat] at hb

/-- The bytes of characters are those of each character in turn. -/
theorem utf8_ofList (chars : List Char) :
    utf8 (String.ofList chars) = chars.flatMap String.utf8EncodeChar := by
  simp [utf8, List.utf8Encode]

/-- Plain characters have one byte each. -/
theorem utf8_ofList_plain {chars : List Char} (h : ∀ c ∈ chars, c.toNat < 128) :
    utf8 (String.ofList chars) = chars.map fun c => UInt8.ofNat c.toNat := by
  rw [utf8_ofList]
  induction chars with
  | nil => rfl
  | cons c rest ih =>
    rw [List.forall_mem_cons] at h
    have hsize : c.utf8Size = 1 := by
      rw [Char.utf8Size_eq_one_iff, UInt32.le_iff_toNat_le]
      have : c.val.toNat = c.toNat := rfl
      have : (127 : UInt32).toNat = 127 := rfl
      omega
    rw [List.flatMap_cons, String.utf8EncodeChar_eq_singleton hsize, ih h.2]
    rfl

/-- A plain text has as many bytes as characters. -/
theorem length_utf8_of_plain {text : String} (h : ∀ c ∈ text.toList, c.toNat < 128) :
    (utf8 text).length = text.toList.length := by
  have hbytes := utf8_ofList_plain h
  rw [String.ofList_toList] at hbytes
  rw [hbytes, List.length_map]

end OpaqueTokens.Text
