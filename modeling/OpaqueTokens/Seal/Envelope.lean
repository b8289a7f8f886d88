import OpaqueTokens.Crypto.Aead
import OpaqueTokens.Seal.Key
import OpaqueTokens.Text.Base64
import OpaqueTokens.Text.Utf8

/-!
# Envelopes

A sealed value is the unpadded URL-safe text of an envelope: a version byte, the length of the
key identifier in one byte, the key identifier, a nonce of twelve bytes, and a ciphertext with
its tag. Everything before the nonce is authenticated with the ciphertext, which hides the expiry
as eight bytes and the payload after it.
-/

namespace OpaqueTokens

/-- The twelve bytes that must differ between any two values sealed with one key. -/
@[ext]
structure Nonce where
  bytes : List UInt8
  length_eq : bytes.length = 12
  deriving DecidableEq

/-- The nonce of some bytes, if they are of the right number. -/
def Nonce.ofBytes? (bytes : List UInt8) : Option Nonce :=
  if h : bytes.length = 12 then some ⟨bytes, h⟩ else none

namespace Envelope

/-- The one version there is. -/
def version : UInt8 := 1

/-- The bytes of nonce, expiry and tag: what every envelope holds after its header. -/
def minimumRest : Nat := 12 + 16 + 8

/-- The bytes before the nonce. The length of the key identifier is below 256. -/
def header (keyId : String) : List UInt8 :=
  let id := Text.utf8 keyId
  version :: UInt8.ofNat id.length :: id

/-- The eight bytes of a signed integer, the highest first. -/
def expiryBytes (seconds : Int) : List UInt8 :=
  let n := (seconds % 18446744073709551616).toNat
  (List.range 8).map fun i => UInt8.ofNat (n / Nat.pow 256 (7 - i))

/-- The signed integer of eight bytes. -/
def ofExpiryBytes (bytes : List UInt8) : Int :=
  let n : Nat := bytes.foldl (fun n b => 256 * n + b.toNat) 0
  if n < 9223372036854775808 then n else (n : Int) - 18446744073709551616

/-- The hidden text: the expiry and the payload. -/
def content (expiry : Int) (payload : List UInt8) : List UInt8 :=
  expiryBytes expiry ++ payload

/-- The bytes of an envelope that is taken apart: all of them up to the nonce, the key identifier
among these, the nonce, and the ciphertext with its tag. -/
structure Parts where
  header : List UInt8
  keyId : List UInt8
  nonce : List UInt8
  hidden : List UInt8
  deriving DecidableEq

/-- Takes an envelope apart. It must have the known version and be long enough for the header
that it announces and an empty payload. -/
def split? (bytes : List UInt8) : Option Parts :=
  match bytes with
  | first :: idLength :: _ =>
    let size := 2 + idLength.toNat
    if first = version ∧ size + minimumRest ≤ bytes.length then
      let rest := bytes.drop size
      some {
        header := bytes.take size
        keyId := (bytes.take size).drop 2
        nonce := rest.take 12
        hidden := rest.drop 12 }
    else none
  | _ => none

end Envelope

end OpaqueTokens
