/-!
# Base 64

Three bytes are four digits of six bits. Sealed tokens and challenges use the URL-safe alphabet
without padding; keys use the standard alphabet, padded to whole groups of four. Reading accepts
exactly what writing produces: the alphabet of the form, its padding, and no bits beyond the
last whole byte.
-/

namespace OpaqueTokens.Text.Base64

/-- The two alphabets, which differ in their last two digits. -/
inductive Alphabet where
  | standard
  | urlSafe
  deriving DecidableEq, Repr

/-- The characters of the digits 62 and 63. -/
def Alphabet.last : Alphabet → Char × Char
  | .standard => ('+', '/')
  | .urlSafe => ('-', '_')

/-- The character of a digit below 64. -/
def Alphabet.digit (alphabet : Alphabet) (n : Nat) : Char :=
  if n < 26 then Char.ofNat (0x41 + n)
  else if n < 52 then Char.ofNat (0x61 + (n - 26))
  else if n < 62 then Char.ofNat (0x30 + (n - 52))
  else if n = 62 then alphabet.last.1
  else alphabet.last.2

/-- The digit that a character stands for. -/
def Alphabet.value? (alphabet : Alphabet) (c : Char) : Option Nat :=
  let n := c.toNat
  if 0x41 ≤ n ∧ n ≤ 0x5A then some (n - 0x41)
  else if 0x61 ≤ n ∧ n ≤ 0x7A then some (n - 0x61 + 26)
  else if 0x30 ≤ n ∧ n ≤ 0x39 then some (n - 0x30 + 52)
  else if c = alphabet.last.1 then some 62
  else if c = alphabet.last.2 then some 63
  else none

/-- The six-bit digits of a list of bytes; the last one is filled up with zero bits. -/
def digits : List UInt8 → List Nat
  | [] => []
  | [a] => [a.toNat / 4, a.toNat % 4 * 16]
  | [a, b] => [a.toNat / 4, a.toNat % 4 * 16 + b.toNat / 16, b.toNat % 16 * 4]
  | a :: b :: c :: rest =>
    (a.toNat / 4) :: (a.toNat % 4 * 16 + b.toNat / 16) :: (b.toNat % 16 * 4 + c.toNat / 64) ::
      (c.toNat % 64) :: digits rest

/-- The bytes of six-bit digits. A lone digit, and bits beyond the last byte, are refused. -/
def ofDigits? : List Nat → Option (List UInt8)
  | [] => some []
  | [_] => none
  | [s, t] => if t % 16 = 0 then some [UInt8.ofNat (s * 4 + t / 16)] else none
  | [s, t, u] =>
    if u % 4 = 0 then
      some [UInt8.ofNat (s * 4 + t / 16), UInt8.ofNat (t % 16 * 16 + u / 4)]
    else none
  | s :: t :: u :: v :: rest =>
    (ofDigits? rest).map fun bytes =>
      UInt8.ofNat (s * 4 + t / 16) :: UInt8.ofNat (t % 16 * 16 + u / 4) ::
        UInt8.ofNat (u % 4 * 64 + v) :: bytes

/-- The unpadded characters of a list of bytes. -/
def encodeChars (alphabet : Alphabet) (bytes : List UInt8) : List Char :=
  (digits bytes).map alphabet.digit

/-- The bytes of unpadded characters. -/
def decodeChars? (alphabet : Alphabet) (chars : List Char) : Option (List UInt8) :=
  (chars.mapM alphabet.value?).bind ofDigits?

/-- The padding that fills the last group of this many characters. -/
def padding (count : Nat) : List Char :=
  List.replicate ((4 - count % 4) % 4) '='

/-- The unpadded URL-safe text of a list of bytes. -/
def encodeUrl (bytes : List UInt8) : String :=
  String.ofList (encodeChars .urlSafe bytes)

/-- The bytes of an unpadded URL-safe text. -/
def decodeUrl? (text : String) : Option (List UInt8) :=
  decodeChars? .urlSafe text.toList

/-- The padded standard text of a list of bytes. -/
def encodePadded (bytes : List UInt8) : String :=
  let chars := encodeChars .standard bytes
  String.ofList (chars ++ padding chars.length)

/-- The bytes of a padded standard text. -/
def decodePadded? (text : String) : Option (List UInt8) :=
  let (chars, pad) := text.toList.span (· ≠ '=')
  if pad = padding chars.length then decodeChars? .standard chars else none

end OpaqueTokens.Text.Base64
