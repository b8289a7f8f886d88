/-!
# Texts as bytes

Everything that is sealed, hashed or sent is a list of bytes. A text is its UTF-8 bytes, and a
list of bytes is a text exactly when it is valid UTF-8: surrogates, overlong forms and code
points past the last plane have no text.
-/

namespace OpaqueTokens.Text

/-- The UTF-8 bytes of a text. -/
def utf8 (text : String) : List UInt8 :=
  text.toByteArray.data.toList

/-- The text that the bytes spell, if they are valid UTF-8. -/
def ofUtf8? (bytes : List UInt8) : Option String :=
  String.fromUTF8? ⟨bytes.toArray⟩

/-- A text is read back from its bytes. -/
theorem ofUtf8?_utf8 (text : String) : ofUtf8? (utf8 text) = some text := by
  simp [ofUtf8?, utf8, String.fromUTF8?, String.fromUTF8, text.isValidUTF8]

/-- Bytes that spell a text are the bytes of that text. -/
theorem utf8_of_ofUtf8? {bytes : List UInt8} {text : String} (h : ofUtf8? bytes = some text) :
    utf8 text = bytes := by
  unfold ofUtf8? String.fromUTF8? at h
  split at h
  · cases h; rfl
  · cases h

/-- Different texts have different bytes. -/
theorem utf8_injective {a b : String} (h : utf8 a = utf8 b) : a = b := by
  have := ofUtf8?_utf8 a
  rw [h, ofUtf8?_utf8 b] at this
  exact (Option.some.inj this).symm

end OpaqueTokens.Text
