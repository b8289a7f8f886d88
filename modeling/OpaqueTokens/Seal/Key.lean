import OpaqueTokens.Config.Basic
import OpaqueTokens.Text.Base64
import OpaqueTokens.Text.Blank
import OpaqueTokens.Text.Hex

/-!
# Sealing keys

A key is thirty-two bytes. It is written in hexadecimal or in padded base 64 and found in an
environment variable; no text can be read as two different keys.
-/

namespace OpaqueTokens

/-- The thirty-two bytes of a key. -/
@[ext]
structure SealerKey where
  bytes : List UInt8
  length_eq : bytes.length = 32
  deriving DecidableEq

/-- The values of environment variables, as bytes. -/
abbrev Environment := String → Option (List UInt8)

namespace SealerKey

/-- The key of some bytes, if they are of the right number. -/
def ofBytes (bytes : List UInt8) : Except ConfigError SealerKey :=
  if h : bytes.length = 32 then .ok ⟨bytes, h⟩
  else .error (.invalidValue (.keyLength bytes.length))

/-- Reads a key; blanks around it do not count. -/
def parse (text : String) : Except ConfigError SealerKey :=
  let text := Text.trim text
  let fromHex :=
    if (Text.utf8 text).length = 64 then Text.Hex.decode? text else none
  match fromHex with
  | some bytes => ofBytes bytes
  | none =>
    match Text.Base64.decodePadded? text with
    | some bytes => ofBytes bytes
    | none => .error (.invalidValue .keyEncoding)

/-- Reads the key of an environment variable. -/
def ofEnvironment (environment : Environment) (name : String) :
    Except ConfigError SealerKey :=
  match environment name with
  | none => .error (.missing name)
  | some bytes =>
    match Text.ofUtf8? bytes with
    | some text => parse text
    | none => .error (.invalidValue (.variableNotText name))

/-- The hexadecimal text of a key. -/
def toHex (key : SealerKey) : String :=
  Text.Hex.encode key.bytes

/-- The padded base 64 text of a key. -/
def toBase64 (key : SealerKey) : String :=
  Text.Base64.encodePadded key.bytes

/-- What is shown of a key: nothing. -/
def shown (_ : SealerKey) : String :=
  "SealerKey(<redacted>)"

end SealerKey

end OpaqueTokens
