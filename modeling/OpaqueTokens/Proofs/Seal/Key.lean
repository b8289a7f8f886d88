import OpaqueTokens.Proofs.Text.Base64
import OpaqueTokens.Proofs.Text.Hex
import OpaqueTokens.Proofs.Text.Utf8
import OpaqueTokens.Proofs.Text.Words
import OpaqueTokens.Seal.Key

/-!
# Keys and their written forms

A key is written as sixty-four hexadecimal digits, in either case, or as the forty-four characters
of its padded base 64. A text is read as a key just when it is such a form of the key with blanks
around it. The two decoders are tried one after the other, but the lengths of the forms tell them
apart, so neither hides what the other one reads.
-/

namespace OpaqueTokens.SealerKey

/-- A text is a hexadecimal form of a key: its digits, each in upper or in lower case. -/
def IsHexForm (key : SealerKey) (text : String) : Prop :=
  Text.Hex.SpelledInEitherCase text.toList key.toHex.toList

/-- A text is a written form of a key. -/
def IsWritten (key : SealerKey) (text : String) : Prop :=
  key.IsHexForm text ∨ text = key.toBase64

variable {key other : SealerKey} {text : String}

/-- A text is a hexadecimal form of a key just when it decodes to the bytes of the key. -/
theorem isHexForm_iff : key.IsHexForm text ↔ Text.Hex.decode? text = some key.bytes :=
  Text.Hex.decode?_eq_some_iff.symm

/-- A text is the base 64 of a key just when it decodes to the bytes of the key. -/
theorem eq_toBase64_iff :
    text = key.toBase64 ↔ Text.Base64.decodePadded? text = some key.bytes := by
  rw [Text.Base64.decodePadded?_eq_some_iff]
  exact eq_comm

/-- The hexadecimal text of a key is one of its hexadecimal forms. -/
theorem isHexForm_toHex (key : SealerKey) : key.IsHexForm key.toHex :=
  isHexForm_iff.mpr (Text.Hex.decode?_encode key.bytes)

/-- A hexadecimal form has sixty-four digits. -/
theorem IsHexForm.length_eq (h : key.IsHexForm text) : text.toList.length = 64 := by
  rw [List.Forall₂.length_eq h, toHex, Text.Hex.encode, String.toList_ofList,
    Text.Hex.length_encodeChars, key.length_eq]

/-- Whatever holds of all hexadecimal digits in both cases holds of a hexadecimal form. -/
theorem IsHexForm.forall_mem {P : Char → Prop} (h : key.IsHexForm text)
    (hdigits : ∀ n < 16, P (Text.Hex.digit n) ∧ P (Text.Hex.digit n).toUpper) :
    ∀ c ∈ text.toList, P c := by
  rw [IsHexForm, toHex, Text.Hex.encode, String.toList_ofList] at h
  exact Text.Hex.forall_mem_of_spelled hdigits h

/-- The base 64 of a key is forty-three characters and one that pads. -/
theorem toList_toBase64 (key : SealerKey) :
    key.toBase64.toList = Text.Base64.encodeChars .standard key.bytes ++ ['='] := by
  rw [toBase64, Text.Base64.encodePadded, String.toList_ofList, Text.Base64.length_encodeChars,
    key.length_eq]
  rfl

/-- The base 64 of a key has forty-four characters. -/
theorem length_toBase64 (key : SealerKey) : key.toBase64.toList.length = 44 := by
  rw [toList_toBase64, List.length_append, Text.Base64.length_encodeChars, key.length_eq]
  rfl

/-- Whatever holds of all base 64 digits and of what pads holds of the base 64 of a key. -/
theorem forall_mem_toBase64 {P : Char → Prop}
    (hdigits : ∀ n < 64, P (Text.Base64.Alphabet.standard.digit n)) (hpad : P '=')
    (key : SealerKey) : ∀ c ∈ key.toBase64.toList, P c := by
  rw [toList_toBase64, List.forall_mem_append]
  exact ⟨Text.Base64.forall_mem_encodeChars hdigits key.bytes, by simpa using hpad⟩

/-- A written form is a word, so that the blanks around it can be told from it. -/
theorem IsWritten.isWord (h : key.IsWritten text) : Text.IsWord text := by
  have hne : text.toList.length ≠ 0 := by
    rcases h with h | rfl
    · rw [h.length_eq]
      decide
    · rw [length_toBase64]
      decide
  refine ⟨fun hempty => hne (by rw [hempty]; rfl), ?_⟩
  rcases h with h | rfl
  · exact h.forall_mem (by decide)
  · exact forall_mem_toBase64 (by decide) (by decide) key

/-- No text is a hexadecimal form of one key and the base 64 of another: the lengths differ. -/
theorem IsHexForm.ne_toBase64 (h : key.IsHexForm text) (other : SealerKey) :
    text ≠ other.toBase64 := by
  rintro rfl
  have hlength := h.length_eq
  rw [length_toBase64] at hlength
  cases hlength

/-- A text is a written form of one key at most. -/
theorem IsWritten.unique (h : key.IsWritten text) (hother : other.IsWritten text) :
    key = other := by
  rcases h with h | h
  · rcases hother with hother | hother
    · exact SealerKey.ext (Option.some.inj
        ((isHexForm_iff.mp h).symm.trans (isHexForm_iff.mp hother)))
    · exact absurd hother (h.ne_toBase64 other)
  · rcases hother with hother | hother
    · exact absurd h (hother.ne_toBase64 key)
    · exact SealerKey.ext (Option.some.inj
        ((eq_toBase64_iff.mp h).symm.trans (eq_toBase64_iff.mp hother)))

/-- Bytes are those of a key just when there are thirty-two of them. -/
theorem ofBytes_eq_ok_iff {bytes : List UInt8} : ofBytes bytes = .ok key ↔ bytes = key.bytes := by
  rw [ofBytes]
  split
  · simp [SealerKey.ext_iff]
  · rename_i hlength
    simp only [reduceCtorEq, false_iff]
    rintro rfl
    exact hlength key.length_eq

/-- A hexadecimal form has sixty-four bytes, and the base 64 of a key has not. -/
theorem IsWritten.isHexForm_iff_length (h : key.IsWritten text) :
    key.IsHexForm text ↔ (Text.utf8 text).length = 64 := by
  rcases h with h | rfl
  · rw [Text.length_utf8_of_plain (h.forall_mem (by decide)), h.length_eq]
    exact iff_of_true h rfl
  · rw [Text.length_utf8_of_plain (forall_mem_toBase64 (by decide) (by decide) key), length_toBase64]
    exact iff_of_false (fun h => h.ne_toBase64 key rfl) (by decide)

/-- A text is read as a key just when it is a written form of it, but for the blanks around it. -/
theorem parse_eq_ok_iff : parse text = .ok key ↔ key.IsWritten (Text.trim text) := by
  rw [parse]
  generalize Text.trim text = core
  have hwritten (h : key.IsWritten core) := h.isHexForm_iff_length
  simp only [IsWritten, isHexForm_iff, eq_toBase64_iff] at hwritten ⊢
  by_cases hlength : (Text.utf8 core).length = 64
  · rw [if_pos hlength]
    cases hhex : Text.Hex.decode? core with
    | none => cases Text.Base64.decodePadded? core <;> simp [ofBytes_eq_ok_iff]
    | some bytes =>
      -- What base 64 reads has another length, so it is not hidden by what is read before.
      have honly := fun hbase64 => (hwritten (.inr hbase64)).mpr hlength
      rw [hhex] at honly
      simpa [ofBytes_eq_ok_iff] using honly
  · rw [if_neg hlength]
    have hnot : Text.Hex.decode? core ≠ some key.bytes := fun hhex =>
      hlength ((hwritten (.inl hhex)).mp hhex)
    cases Text.Base64.decodePadded? core <;> simp [ofBytes_eq_ok_iff, hnot]

/-- A written form is read as its key, whatever blanks are around it. -/
theorem IsWritten.parse_of_isPadded {padded : String} (h : key.IsWritten text)
    (hpadded : Text.IsPadded text padded) : parse padded = .ok key := by
  rw [parse_eq_ok_iff, Text.trim_of_isPadded h.isWord hpadded]
  exact h

/-- A text is read as a key just when what trimming leaves of it is a hexadecimal form of the key or
its padded base 64, so just when it is such a form with any blanks around it. Both texts that a key
is written as are read back. No text is a form of two keys, none is a form of both kinds, and what
base 64 reads as a key is read as that key although hexadecimal is tried first. -/
theorem parsed_exactly :
    (∀ (text : String) (key : SealerKey), parse text = .ok key ↔
      key.IsHexForm (Text.trim text) ∨ Text.trim text = key.toBase64) ∧
    (∀ (text : String) (key : SealerKey), parse text = .ok key ↔
      ∃ core, Text.IsPadded core text ∧ (key.IsHexForm core ∨ core = key.toBase64)) ∧
    (∀ (key : SealerKey) (before after : String), (∀ c ∈ before.toList, Text.isBlank c = true) →
      (∀ c ∈ after.toList, Text.isBlank c = true) →
        parse (before ++ key.toHex ++ after) = .ok key ∧
          parse (before ++ key.toBase64 ++ after) = .ok key) ∧
    (∀ (text : String) (key other : SealerKey), key.IsHexForm text ∨ text = key.toBase64 →
      other.IsHexForm text ∨ text = other.toBase64 → key = other) ∧
    (∀ (text : String) (key other : SealerKey), key.IsHexForm text →
      text.length = 64 ∧ other.toBase64.length = 44 ∧ text ≠ other.toBase64) ∧
    ∀ (text : String) (key : SealerKey),
      Text.Base64.decodePadded? (Text.trim text) = some key.bytes → parse text = .ok key := by
  refine ⟨fun text key => parse_eq_ok_iff, fun text key => ⟨fun h => ?_, ?_⟩,
    fun key before after hbefore hafter => ?_, fun text key other => IsWritten.unique,
    fun text key other h => ⟨?_, ?_, h.ne_toBase64 other⟩,
    fun text key h => parse_eq_ok_iff.mpr (.inr (eq_toBase64_iff.mpr h))⟩
  · exact ⟨Text.trim text, Text.isPadded_trim text, parse_eq_ok_iff.mp h⟩
  · rintro ⟨core, hpadded, hwritten⟩
    exact IsWritten.parse_of_isPadded hwritten hpadded
  · have hpadded (core : String) : Text.IsPadded core (before ++ core ++ after) :=
      ⟨before.toList, after.toList, hbefore, hafter, by simp⟩
    exact ⟨IsWritten.parse_of_isPadded (.inl key.isHexForm_toHex) (hpadded _),
      IsWritten.parse_of_isPadded (.inr rfl) (hpadded _)⟩
  · rw [← String.length_toList, h.length_eq]
  · rw [← String.length_toList, length_toBase64]

/-- A key whose hexadecimal digits are all letters. -/
def sampleKey : SealerKey := ⟨List.replicate 32 0xAB, by decide⟩

/-- Blanks of several kinds around a key do not count, and neither does the case of its digits. -/
theorem parsed_exactly_sample :
    parse ("\t " ++ sampleKey.toBase64 ++ "\u3000\n") = .ok sampleKey ∧
      parse (String.ofList (List.replicate 32 ['a', 'B']).flatten ++ "\u00A0") = .ok sampleKey := by
  obtain ⟨htrimmed, -, hwritten, -⟩ := parsed_exactly
  refine ⟨(hwritten sampleKey "\t " "\u3000\n" (by simp [Text.isBlank])
    (by simp [Text.isBlank])).2, ?_⟩
  rw [htrimmed]
  exact .inl (isHexForm_iff.mpr (by decide +kernel))

end OpaqueTokens.SealerKey
