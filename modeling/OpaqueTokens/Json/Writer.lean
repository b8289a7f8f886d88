import OpaqueTokens.Json.Value
import OpaqueTokens.Text.Utf8

/-!
# Writing documents

A value is written either without any blanks, the form that is sealed and sent, or indented by
two spaces a level, the form that is shown to people. In strings only the quote, the backslash
and control bytes are escaped, by a letter where there is one.
-/

namespace OpaqueTokens.Json

open Text (utf8)

/-- The lower-case hexadecimal digit of a half byte, as a byte. -/
def hexByte (n : UInt8) : UInt8 :=
  if n < 10 then 0x30 + n else 0x57 + n

/-- A byte of a string as it is written. -/
def escapeByte (b : UInt8) : List UInt8 :=
  if b = 0x22 then [0x5C, 0x22]
  else if b = 0x5C then [0x5C, 0x5C]
  else if 0x20 ≤ b then [b]
  else if b = 0x08 then [0x5C, 0x62]
  else if b = 0x09 then [0x5C, 0x74]
  else if b = 0x0A then [0x5C, 0x6E]
  else if b = 0x0C then [0x5C, 0x66]
  else if b = 0x0D then [0x5C, 0x72]
  else [0x5C, 0x75, 0x30, 0x30, hexByte (b >>> 4), hexByte (b &&& 15)]

/-- A string with its quotes. -/
def quote (text : String) : List UInt8 :=
  0x22 :: (utf8 text).flatMap escapeByte ++ [0x22]

/-- The text of a number. -/
def Number.write : Number → List UInt8
  | .integer n => utf8 (toString n)
  | .double x => utf8 (String.ofList x.toChars)

mutual

/-- A value without blanks. -/
def write : Json → List UInt8
  | .null => utf8 "null"
  | .bool true => utf8 "true"
  | .bool false => utf8 "false"
  | .number n => n.write
  | .string s => quote s
  | .array items => 0x5B :: writeItems items ++ [0x5D]
  | .object fields => 0x7B :: writeFields fields ++ [0x7D]

/-- Values separated by commas. -/
def writeItems : List Json → List UInt8
  | [] => []
  | [item] => item.write
  | item :: next :: rest => item.write ++ 0x2C :: writeItems (next :: rest)

/-- Fields separated by commas. -/
def writeFields : List (String × Json) → List UInt8
  | [] => []
  | [(name, value)] => quote name ++ 0x3A :: value.write
  | (name, value) :: next :: rest =>
    quote name ++ 0x3A :: value.write ++ 0x2C :: writeFields (next :: rest)

end

/-- A line break and the indentation of a level. -/
def newline (level : Nat) : List UInt8 :=
  0x0A :: List.replicate (2 * level) 0x20

mutual

/-- A value indented by two spaces a level; an empty list or object stays on its line. -/
def indented (level : Nat) : Json → List UInt8
  | .null => utf8 "null"
  | .bool true => utf8 "true"
  | .bool false => utf8 "false"
  | .number n => n.write
  | .string s => quote s
  | .array [] => [0x5B, 0x5D]
  | .array (item :: rest) =>
    0x5B :: newline (level + 1) ++ item.indented (level + 1) ++ indentedItems (level + 1) rest ++
      newline level ++ [0x5D]
  | .object [] => [0x7B, 0x7D]
  | .object ((name, value) :: rest) =>
    0x7B :: newline (level + 1) ++ quote name ++ utf8 ": " ++ value.indented (level + 1) ++
      indentedFields (level + 1) rest ++ newline level ++ [0x7D]

/-- The values after the first one of a list. -/
def indentedItems (level : Nat) : List Json → List UInt8
  | [] => []
  | item :: rest => 0x2C :: newline level ++ item.indented level ++ indentedItems level rest

/-- The fields after the first one of an object. -/
def indentedFields (level : Nat) : List (String × Json) → List UInt8
  | [] => []
  | (name, value) :: rest =>
    0x2C :: newline level ++ quote name ++ utf8 ": " ++ value.indented level ++
      indentedFields level rest

end

/-- The text of a value without blanks. -/
def toText (value : Json) : String :=
  (Text.ofUtf8? value.write).getD ""

/-- The indented text of a value. -/
def toIndentedText (value : Json) : String :=
  (Text.ofUtf8? (value.indented 0)).getD ""

end OpaqueTokens.Json
