import OpaqueTokens.Json.Node
import OpaqueTokens.Proofs.Json.Scanning

/-!
# Strings read back

A string is written with a quote, a backslash and control bytes escaped, and every other byte as
it is. The scanner takes the escapes in without looking into them; asking for the text of what
it took gives the string back.
-/

namespace OpaqueTokens.Json

open Text (utf8 ofUtf8?)

/-- The bytes between the quotes of a text. -/
def escaped (text : String) : List UInt8 :=
  (utf8 text).flatMap escapeByte

/-- A byte is written as it is, or escaped by a letter that stands for it, or escaped by its
number. -/
theorem escapeByte_cases (b : UInt8) :
    (escapeByte b = [b] ∧ b ≠ 0x22 ∧ b ≠ 0x5C ∧ ¬b < 0x20) ∨
      (∃ letter, escapeByte b = [0x5C, letter] ∧ letter ≠ 0x75 ∧
        letter ∈ ([0x22, 0x5C, 0x2F, 0x62, 0x66, 0x6E, 0x72, 0x74] : List UInt8) ∧
        Node.letterByte letter = b) ∨
      (escapeByte b = [0x5C, 0x75, 0x30, 0x30, hexByte (b >>> 4), hexByte (b &&& 15)] ∧
        b < 0x20) := by
  unfold escapeByte
  split
  · rename_i h; subst h; exact .inr (.inl ⟨0x22, by decide⟩)
  split
  · rename_i h; subst h; exact .inr (.inl ⟨0x5C, by decide⟩)
  split
  · rename_i hquote hbackslash hplain
    exact .inl ⟨rfl, hquote, hbackslash, UInt8.not_lt.mpr hplain⟩
  split
  · rename_i h; subst h; exact .inr (.inl ⟨0x62, by decide⟩)
  split
  · rename_i h; subst h; exact .inr (.inl ⟨0x74, by decide⟩)
  split
  · rename_i h; subst h; exact .inr (.inl ⟨0x6E, by decide⟩)
  split
  · rename_i h; subst h; exact .inr (.inl ⟨0x66, by decide⟩)
  split
  · rename_i h; subst h; exact .inr (.inl ⟨0x72, by decide⟩)
  · rename_i hcontrol _ _ _ _ _
    exact .inr (.inr ⟨rfl, UInt8.not_le.mp hcontrol⟩)

namespace Scan

/-- The digits of an escaped control byte are hexadecimal. -/
theorem isHexByte_hexByte (b : UInt8) :
    isHexByte (hexByte (b >>> 4)) = true ∧ isHexByte (hexByte (b &&& 15)) = true :=
  Text.forall_byte (P := fun b => isHexByte (hexByte (b >>> 4)) = true ∧
    isHexByte (hexByte (b &&& 15)) = true) (by decide +kernel) b

/-- A byte of a string is taken in as it is written. -/
theorem run_escapeByte (b : UInt8) (held : List UInt8) :
    run (.string held .none) (escapeByte b) =
      some ([], .string ((escapeByte b).reverse ++ held) .none) := by
  rcases escapeByte_cases b with ⟨heq, hquote, hbackslash, hplain⟩ |
    ⟨letter, heq, hnumber, hletter, -⟩ | ⟨heq, -⟩
  · rw [heq]
    simp [run, step, inString, hquote, hbackslash, hplain]
  · rw [heq]
    simp only [run, step, inString]
    simp [hnumber, hletter]
  · obtain ⟨hhigh, hlow⟩ := isHexByte_hexByte b
    have hzero : isHexByte 0x30 = true := by decide
    rw [heq]
    simp [run, step, inString, hhigh, hlow, hzero]

/-- The bytes of a string are taken in as they are written. -/
theorem run_escape (bytes held : List UInt8) :
    run (.string held .none) (bytes.flatMap escapeByte) =
      some ([], .string ((bytes.flatMap escapeByte).reverse ++ held) .none) := by
  induction bytes generalizing held with
  | nil => simp [run]
  | cons b rest ih =>
    rw [List.flatMap_cons, run_append, run_escapeByte]
    simp [ih]

end Scan

/-- A string scans as what stands between its quotes. -/
theorem Lexeme.scan?_quote (text : String) :
    scan? (quote text) = some [.string (escaped text)] := by
  have hopen : Scan.between.step 0x22 = some ([], .string [] .none) := by decide
  refine scan?_eq_some_iff.mpr ⟨[.string (escaped text)], .between, [], ?_, rfl, rfl⟩
  rw [quote, List.cons_append, Scan.run, hopen, Option.bind_some, Scan.run_append,
    Scan.run_escape]
  simp [Scan.run, Scan.step, Scan.inString, escaped]

namespace Node

/-- The two digits of an escaped control byte are its two halves. -/
theorem unit_hexByte (b : UInt8) :
    b < 0x20 → unit 0x30 0x30 (hexByte (b >>> 4)) (hexByte (b &&& 15)) = b.toNat :=
  Text.forall_byte (P := fun b => b < 0x20 →
    unit 0x30 0x30 (hexByte (b >>> 4)) (hexByte (b &&& 15)) = b.toNat) (by decide +kernel) b

/-- A control character has one byte, which is its number. -/
theorem utf8EncodeChar_control (b : UInt8) :
    b < 0x20 → String.utf8EncodeChar (Char.ofNat b.toNat) = [b] :=
  Text.forall_byte (P := fun b => b < 0x20 →
    String.utf8EncodeChar (Char.ofNat b.toNat) = [b]) (by decide +kernel) b

/-- The escape of a byte stands for that byte. -/
theorem unescape?_escapeByte (b : UInt8) (rest : List UInt8) :
    unescape? (escapeByte b ++ rest) = (unescape? rest).map (b :: ·) := by
  rcases escapeByte_cases b with ⟨heq, -, hbackslash, -⟩ |
    ⟨letter, heq, hnumber, -, hletter⟩ | ⟨heq, hcontrol⟩
  · rw [heq, List.singleton_append, unescape?]
    all_goals simp [hbackslash]
  · rw [heq, List.cons_append, List.singleton_append, unescape?, hletter]
    all_goals simp [hnumber]
  · have hnat : b.toNat < 0x20 := by simpa [UInt8.lt_iff_toNat_lt] using hcontrol
    rw [heq]
    simp only [List.cons_append, List.nil_append]
    rw [unescape?.eq_def]
    simp only [unit_hexByte b hcontrol]
    rw [if_pos (by omega), utf8EncodeChar_control b hcontrol]
    rfl

/-- The escapes of bytes stand for those bytes. -/
theorem unescape?_escape (bytes : List UInt8) :
    unescape? (bytes.flatMap escapeByte) = some bytes := by
  induction bytes with
  | nil => rfl
  | cons b rest ih => rw [List.flatMap_cons, unescape?_escapeByte, ih, Option.map_some]

/-- What stands between the quotes of a text spells that text. -/
theorem textOf?_escaped (text : String) : textOf? (escaped text) = some text := by
  rw [textOf?, escaped, unescape?_escape, Option.bind_some, Text.ofUtf8?_utf8]

end Node

end OpaqueTokens.Json
