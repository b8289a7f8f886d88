import OpaqueTokens.Text.Printable

/-!
# Quoted texts

A text between quotes on one line, for people who read logs: quotes, backslashes and line breaks
are escaped by a letter, and characters that cannot be seen by their code points.
-/

namespace OpaqueTokens.Text.Quoted

/-- The letter that a character is escaped by. -/
def letter? : Char → Option Char
  | '\x00' => some '0'
  | '\t' => some 't'
  | '\n' => some 'n'
  | '\r' => some 'r'
  | '"' => some '"'
  | '\\' => some '\\'
  | _ => none

/-- The code point of a character in braces. -/
def codePoint (c : Char) : List Char :=
  ['\\', 'u', '\x7b'] ++ Nat.toDigits 16 c.toNat ++ ['\x7d']

/-- A character as it is written between quotes. -/
def escape (c : Char) : List Char :=
  match letter? c with
  | some letter => ['\\', letter]
  | none => if isPrintable c then [c] else codePoint c

/-- A text between quotes. -/
def encode (text : String) : String :=
  String.ofList ('"' :: text.toList.flatMap escape ++ ['"'])

end OpaqueTokens.Text.Quoted
