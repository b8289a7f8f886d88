import OpaqueTokens.Crypto.Gcm

/-!
# What the cipher promises

Encryption in counter mode hides a text by combining it with a key stream that is at least as
long, so doing it twice gives the text back, and the tag that decryption computes is the one that
encryption appended. So what was encrypted decrypts, and what decrypts is what encryption makes of
the text. This is all that sealing relies on. That nobody without the key can make a text that
decrypts is not a property of one function and is not claimed.
-/

namespace OpaqueTokens.Crypto

/-- A cipher that encrypts every text up to a length, adds a tag of sixteen bytes, and decrypts
what it encrypted. -/
structure Aead.Seals (cipher : Aead) (limit : Nat) : Prop where
  lawful : cipher.Lawful
  encrypts : ∀ key nonce associated text, text.length ≤ limit →
    ∃ hidden, cipher.encrypt key nonce associated text = some hidden
  length_hidden : ∀ {key nonce associated text hidden},
    cipher.encrypt key nonce associated text = some hidden → hidden.length = text.length + 16

/-- A cipher that decrypts nothing but what it encrypts: each text has one hidden form under a key,
a nonce and associated data. -/
def Aead.Exact (cipher : Aead) : Prop :=
  ∀ key nonce associated text hidden,
    cipher.decrypt key nonce associated hidden = some text →
      cipher.encrypt key nonce associated text = some hidden

namespace Gcm

open Aes256 (State)

theorem length_wordBytes (w : UInt64) : (wordBytes w).length = 8 := by
  simp [wordBytes]

theorem length_counterBlock (keys : List State) (nonce : List UInt8) (counter : Nat) :
    (counterBlock keys nonce counter).length = 16 :=
  State.length_bytes _

/-- The key stream consists of whole blocks. -/
theorem length_keystream (keys : List State) (nonce : List UInt8) (length : Nat) :
    (keystream keys nonce length).length = 16 * ((length + 15) / 16) := by
  simp [keystream, List.length_flatMap, length_counterBlock, List.map_const', Nat.mul_comm]

/-- The key stream is as long as the text that it hides, or longer. -/
theorem le_length_keystream (keys : List State) (nonce : List UInt8) (length : Nat) :
    length ≤ (keystream keys nonce length).length := by
  rw [length_keystream]
  omega

/-- Hiding a text keeps its length. -/
theorem length_mask (keys : List State) (nonce text : List UInt8) :
    (mask keys nonce text).length = text.length := by
  have hle := le_length_keystream keys nonce text.length
  rw [mask, List.length_zipWith]
  omega

/-- Bytes that are combined twice with the same bytes are as they were. -/
theorem zipWith_xor_cancel {text stream : List UInt8} (h : text.length ≤ stream.length) :
    List.zipWith (· ^^^ ·) (List.zipWith (· ^^^ ·) text stream) stream = text := by
  induction text generalizing stream with
  | nil => simp
  | cons b rest ih =>
    obtain ⟨s, others, rfl⟩ := List.exists_cons_of_length_pos (Nat.lt_of_lt_of_le (by simp) h)
    have hxor : b ^^^ s ^^^ s = b := by rw [UInt8.xor_assoc, UInt8.xor_self, UInt8.xor_zero]
    simp [hxor, ih (Nat.le_of_succ_le_succ h)]

/-- Hiding a hidden text uncovers it. -/
theorem mask_mask (keys : List State) (nonce text : List UInt8) :
    mask keys nonce (mask keys nonce text) = text := by
  have hle := le_length_keystream keys nonce text.length
  rw [mask, length_mask, mask]
  exact zipWith_xor_cancel hle

/-- A tag has sixteen bytes. -/
theorem length_tag (keys : List State) (nonce associated hidden : List UInt8) :
    (tag keys nonce associated hidden).length = 16 := by
  simp [tag, Element.bytes, length_wordBytes, length_counterBlock]

/-- Only texts that are too long are not encrypted. -/
theorem encrypt_eq_none_iff {key nonce associated text : List UInt8} :
    aead.encrypt key nonce associated text = none ↔ maxTextLength < text.length := by
  change encrypt key nonce associated text = none ↔ _
  rw [encrypt, ite_eq_right_iff, ← Nat.not_le]
  exact forall_congr' fun _ => by simp

/-- What is encrypted decrypts to the same text. -/
theorem decrypt_of_encrypt {key nonce associated text hidden : List UInt8}
    (h : encrypt key nonce associated text = some hidden) :
    decrypt key nonce associated hidden = some text := by
  rw [encrypt] at h
  split at h
  · rename_i hle
    injection h with h
    subst h
    have hsize : (mask (Aes256.roundKeys key) nonce text).length = text.length :=
      length_mask _ _ _
    simp [decrypt, length_tag, hsize, Nat.not_lt.mpr hle, mask_mask]
  · simp at h

/-- The cipher of the sealer encrypts every text up to the limit of the counter. -/
theorem aead_seals : aead.Seals maxTextLength where
  lawful := fun _ _ _ _ _ => decrypt_of_encrypt
  encrypts := fun key nonce associated text hle => by simp [aead, encrypt, hle]
  length_hidden := fun {key nonce associated text hidden} h => by
    simp only [aead, encrypt] at h
    split at h
    · injection h with h
      simp [← h, length_mask, length_tag]
    · simp at h

/-- What decrypts was encrypted from the text that it decrypts to. -/
theorem encrypt_of_decrypt {key nonce associated text hidden : List UInt8}
    (h : decrypt key nonce associated hidden = some text) :
    encrypt key nonce associated text = some hidden := by
  simp only [decrypt] at h
  split at h
  · simp at h
  · rename_i hsize
    split at h
    · rename_i htag
      obtain rfl := Option.some.inj h
      have hlength : (hidden.take (hidden.length - 16)).length ≤ maxTextLength := by
        rw [List.length_take]
        omega
      simp only [encrypt, length_mask, hlength, if_true, mask_mask, htag, List.take_append_drop]
    · simp at h

theorem aead_exact : aead.Exact :=
  fun _ _ _ _ _ => encrypt_of_decrypt

end Gcm

end OpaqueTokens.Crypto
