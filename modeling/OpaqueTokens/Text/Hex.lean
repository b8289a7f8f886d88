/-!
# Hexadecimal bytes

Two hexadecimal digits a byte, the high half first. Writing uses lower case; reading takes
either case and nothing else.
-/

namespace OpaqueTokens.Text.Hex

/-- The lower-case digit of a half byte. -/
def digit (n : Nat) : Char :=
  Char.ofNat (if n < 10 then 0x30 + n else 0x57 + n)

/-- The half byte that a digit of either case stands for. -/
def value? (c : Char) : Option Nat :=
  let n := c.toNat
  if 0x30 ≤ n ∧ n ≤ 0x39 then some (n - 0x30)
  else if 0x61 ≤ n ∧ n ≤ 0x66 then some (n - 0x57)
  else if 0x41 ≤ n ∧ n ≤ 0x46 then some (n - 0x37)
  else none

/-- The digits of a list of bytes. -/
def encodeChars (bytes : List UInt8) : List Char :=
  bytes.flatMap fun b => [digit (b.toNat / 16), digit (b.toNat % 16)]

/-- The bytes that pairs of digits stand for; an odd digit is refused. -/
def decodeChars? : List Char → Option (List UInt8)
  | [] => some []
  | [_] => none
  | high :: low :: rest => do
    let h ← value? high
    let l ← value? low
    let bytes ← decodeChars? rest
    pure (UInt8.ofNat (16 * h + l) :: bytes)

/-- The hexadecimal text of a list of bytes. -/
def encode (bytes : List UInt8) : String :=
  String.ofList (encodeChars bytes)

/-- The bytes of a hexadecimal text. -/
def decode? (text : String) : Option (List UInt8) :=
  decodeChars? text.toList

end OpaqueTokens.Text.Hex
