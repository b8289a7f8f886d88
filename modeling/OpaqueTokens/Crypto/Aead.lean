/-!
# Authenticated encryption with associated data

What the envelope of a token needs of a cipher, and no more. Rules about envelopes are stated
for any such cipher; the sealer uses AES-256 in Galois counter mode.
-/

namespace OpaqueTokens.Crypto

/-- A cipher that hides a text and authenticates it together with associated data. Both
directions take the key, the nonce and the associated data, in this order. -/
structure Aead where
  /-- The ciphertext with its tag, or nothing where the text is too long for the cipher. -/
  encrypt : (key nonce associated text : List UInt8) → Option (List UInt8)
  /-- The text, or nothing where the tag does not fit. -/
  decrypt : (key nonce associated hidden : List UInt8) → Option (List UInt8)

/-- What was encrypted decrypts under the same key, nonce and associated data. -/
def Aead.Lawful (cipher : Aead) : Prop :=
  ∀ key nonce associated text hidden,
    cipher.encrypt key nonce associated text = some hidden →
      cipher.decrypt key nonce associated hidden = some text

end OpaqueTokens.Crypto
