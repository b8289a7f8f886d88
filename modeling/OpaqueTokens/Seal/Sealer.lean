import OpaqueTokens.Crypto.Gcm
import OpaqueTokens.Seal.Envelope
import OpaqueTokens.Seal.Error
import OpaqueTokens.Time.Instant

/-!
# Sealers

A sealer turns a payload with an expiry into a text and back, until the payload expires. The
sealer of the service holds a ring of keys: it seals with the current key and unseals with any
key that a value names, so that keys can be replaced while tokens are out.
-/

namespace OpaqueTokens

open Crypto (Aead)
open Time (Instant)

/-- What the codec needs of a sealer. The clock is given to unsealing only. -/
structure Sealer where
  /-- Seals a payload until the expiry, in seconds. -/
  sealPayload : (payload : List UInt8) → (expiry : Int) → Nonce → Except SealingError String
  /-- Gives back the payload of a sealed text that has not expired. -/
  unsealPayload : (clock : Instant) → (sealed : String) → Except SealingError (List UInt8)

/-- Keys by their identifiers, and the one that seals. -/
structure Keyring where
  currentId : String
  keys : List (String × SealerKey)

namespace Keyring

/-- Accepts a key identifier that fits the envelope. -/
def checkId (id : String) : Except ConfigError Unit :=
  let length := (Text.utf8 id).length
  if id = "" ∨ maxKeyIdLength < length then .error (.invalidValue (.sealerKeyIdLength length))
  else .ok ()

/-- A ring with one key. -/
def new (id : String) (key : SealerKey) : Except ConfigError Keyring := do
  checkId id
  pure ⟨id, [(id, key)]⟩

/-- The key of an identifier. -/
def find? (ring : Keyring) (id : String) : Option SealerKey :=
  ring.keys.lookup id

/-- A ring with one key more, which is used for unsealing only. -/
def add (ring : Keyring) (id : String) (key : SealerKey) : Except ConfigError Keyring := do
  checkId id
  if (ring.find? id).isSome then .error (.invalidValue (.duplicateKeyId id))
  else pure { ring with keys := ring.keys ++ [(id, key)] }

/-- The ring of the key that the settings name. -/
def ofSettings (environment : Environment) (settings : SealerSettings) :
    Except ConfigError Keyring := do
  let key ← SealerKey.ofEnvironment environment settings.keyEnv
  new settings.keyId key

/-- Seals a payload with the current key. -/
def sealPayload (cipher : Aead) (ring : Keyring) (payload : List UInt8) (expiry : Int)
    (nonce : Nonce) : Except SealingError String :=
  match ring.find? ring.currentId with
  | none => .error (.encryption "current key missing from keyring")
  | some key =>
    let header := Envelope.header ring.currentId
    match cipher.encrypt key.bytes nonce.bytes header (Envelope.content expiry payload) with
    | none => .error (.encryption "AES-GCM encryption failed: aead::Error")
    | some hidden => .ok (Text.Base64.encodeUrl (header ++ nonce.bytes ++ hidden))

/-- The key that an envelope names. -/
def keyOf? (ring : Keyring) (parts : Envelope.Parts) : Option SealerKey :=
  (Text.ofUtf8? parts.keyId).bind ring.find?

/-- Unseals a text. Whatever does not authenticate is reported alike: an unknown key, a changed
header and a changed ciphertext. -/
def unsealPayload (cipher : Aead) (ring : Keyring) (clock : Instant) (sealed : String) :
    Except SealingError (List UInt8) :=
  match (Text.Base64.decodeUrl? sealed).bind Envelope.split? with
  | none => .error .malformed
  | some parts =>
    match ring.keyOf? parts with
    | none => .error .tampered
    | some key =>
      match cipher.decrypt key.bytes parts.nonce parts.header parts.hidden with
      | none => .error .tampered
      | some content =>
        if Envelope.ofExpiryBytes (content.take 8) ≤ clock.seconds then .error .expired
        else .ok (content.drop 8)

/-- The sealer of a ring. -/
def sealer (cipher : Aead) (ring : Keyring) : Sealer :=
  ⟨sealPayload cipher ring, unsealPayload cipher ring⟩

end Keyring

end OpaqueTokens
