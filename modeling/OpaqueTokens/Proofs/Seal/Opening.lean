import OpaqueTokens.Proofs.Seal.Sealer

/-!
# What a ring opens

A ring opens exactly the envelopes that one of its keys can make, each until the expiry inside it.
Everything else is refused for one of two reasons: a text that is no envelope is malformed, and an
envelope that none of the keys makes is tampered with. That a value has expired is only ever said
of an envelope that a key of the ring makes. Whether somebody without the keys can find such an
envelope is a matter of the cipher, and nothing is said about it here.
-/

namespace OpaqueTokens

/-- A text that is no envelope: the unpadded URL-safe text of malformed bytes, or of none. -/
def Envelope.MalformedText (text : String) : Prop :=
  ∀ bytes, Text.Base64.encodeUrl bytes = text → Malformed bytes

/-- A text is no envelope just when it cannot be decoded and taken apart. -/
theorem Envelope.malformedText_iff {text : String} :
    MalformedText text ↔ (Text.Base64.decodeUrl? text).bind split? = none := by
  simp only [MalformedText, ← Text.Base64.decodeUrl?_eq_some_iff, Option.bind_eq_none_iff,
    split?_eq_none_iff]

namespace Keyring

open Crypto (Aead Gcm.aead)
open Time (Instant)

/-- What the cipher gives back of an envelope is long enough for an expiry. -/
theorem le_length_of_decrypt {cipher : Aead} {limit : Nat} (hcipher : cipher.Seals limit)
    (hexact : cipher.Exact) {bytes : List UInt8} {parts : Envelope.Parts}
    (hjoins : parts.Joins bytes) {key content : List UInt8}
    (h : cipher.decrypt key parts.nonce parts.header parts.hidden = some content) :
    8 ≤ content.length := by
  have hhidden := hcipher.length_hidden (hexact _ _ _ _ _ h)
  have hlong := hjoins.length_hidden
  omega

/-- What the cipher gives back of an envelope was sealed with the key that the envelope names. -/
theorem sealed_of_decrypt {cipher : Aead} {limit : Nat} (hcipher : cipher.Seals limit)
    (hexact : cipher.Exact) {ring : Keyring} {text : String} {parts : Envelope.Parts}
    (hparts : (Text.Base64.decodeUrl? text).bind Envelope.split? = some parts) {key : SealerKey}
    (hkey : ring.keyOf? parts = some key) {content : List UInt8}
    (hcontent : cipher.decrypt key.bytes parts.nonce parts.header parts.hidden = some content) :
    ring.Sealed cipher text (Envelope.ofExpiryBytes (content.take 8)) (content.drop 8) := by
  obtain ⟨bytes, hbytes, hsplit⟩ := Option.bind_eq_some_iff.mp hparts
  have hjoins := Envelope.joins_of_split? hsplit
  obtain ⟨id, hid, hfind⟩ := Option.bind_eq_some_iff.mp hkey
  have hheader : Envelope.header id = parts.header := by
    rw [hjoins.header_eq, Envelope.header, Text.utf8_of_ofUtf8? hid]
  have hencrypt := hexact _ _ _ _ _ hcontent
  have hexpiry : (content.take 8).length = 8 := by
    rw [List.length_take]
    exact Nat.min_eq_left (le_length_of_decrypt hcipher hexact hjoins hcontent)
  have hsame : Envelope.content (Envelope.ofExpiryBytes (content.take 8)) (content.drop 8) =
      content := by
    rw [Envelope.content, Envelope.expiryBytes_ofExpiryBytes hexpiry, List.take_append_drop]
  refine ⟨Envelope.isExpiry_ofExpiryBytes hexpiry, id, key, ⟨parts.nonce, hjoins.length_nonce⟩,
    parts.hidden, hfind, ?_, ?_⟩
  · rw [hsame, hheader, hencrypt]
  · rw [hheader, hjoins.joined, Text.Base64.decodeUrl?_eq_some_iff.mp hbytes]

/-- What unsealing may answer, and what each answer says about the text. -/
inductive Unsealed (cipher : Aead) (ring : Keyring) (clock : Instant) (text : String) :
    Except SealingError (List UInt8) → Prop where
  | malformed (h : Envelope.MalformedText text) :
    Unsealed cipher ring clock text (.error .malformed)
  | tampered (h : ¬Envelope.MalformedText text) (hforeign : ∀ expiry payload,
      ¬ring.Sealed cipher text expiry payload) : Unsealed cipher ring clock text (.error .tampered)
  | expired {expiry : Int} {payload : List UInt8} (h : ring.Sealed cipher text expiry payload)
    (hclock : expiry ≤ clock.seconds) : Unsealed cipher ring clock text (.error .expired)
  | ok {expiry : Int} {payload : List UInt8} (h : ring.Sealed cipher text expiry payload)
    (hclock : clock.seconds < expiry) : Unsealed cipher ring clock text (.ok payload)

/-- Whatever text is unsealed, the answer says what is true of it. -/
theorem unsealed_unsealPayload {cipher : Aead} {limit : Nat} (hcipher : cipher.Seals limit)
    (hexact : cipher.Exact) {ring : Keyring} (hring : ring.Sound) (clock : Instant)
    (text : String) :
    Unsealed cipher ring clock text (ring.unsealPayload cipher clock text) := by
  -- An envelope of the ring would have been unsealed or reported as expired.
  have hforeign (h : ring.unsealPayload cipher clock text = .error .tampered) (expiry : Int)
      (payload : List UInt8) : ¬ring.Sealed cipher text expiry payload := by
    intro hsealed
    rw [hsealed.unseals hcipher hring clock] at h
    split at h <;> cases h
  cases hparts : (Text.Base64.decodeUrl? text).bind Envelope.split? with
  | none =>
    rw [unsealPayload, hparts]
    exact .malformed (Envelope.malformedText_iff.mpr hparts)
  | some parts =>
    have hformed : ¬Envelope.MalformedText text := by simp [Envelope.malformedText_iff, hparts]
    cases hkey : ring.keyOf? parts with
    | none =>
      have hanswer : ring.unsealPayload cipher clock text = .error .tampered := by
        simp only [unsealPayload, hparts, hkey]
      exact hanswer ▸ .tampered hformed (hforeign hanswer)
    | some key =>
      cases hcontent : cipher.decrypt key.bytes parts.nonce parts.header parts.hidden with
      | none =>
        have hanswer : ring.unsealPayload cipher clock text = .error .tampered := by
          simp only [unsealPayload, hparts, hkey, hcontent]
        exact hanswer ▸ .tampered hformed (hforeign hanswer)
      | some content =>
        have hsealed := sealed_of_decrypt hcipher hexact hparts hkey hcontent
        rw [hsealed.unseals hcipher hring clock]
        split
        · rename_i hclock
          exact .expired hsealed hclock
        · rename_i hclock
          exact .ok hsealed (Int.not_le.mp hclock)

section Answers

variable {cipher : Aead} {limit : Nat} (hcipher : cipher.Seals limit) (hexact : cipher.Exact)
  {ring : Keyring} (hring : ring.Sound) {clock : Instant} {text : String}

include hcipher hexact hring

/-- A payload is given back just when the text is its envelope and has not expired. -/
theorem unsealPayload_eq_ok_iff {payload : List UInt8} :
    ring.unsealPayload cipher clock text = .ok payload ↔
      ∃ expiry, clock.seconds < expiry ∧ ring.Sealed cipher text expiry payload := by
  constructor
  · intro h
    have hspec := unsealed_unsealPayload hcipher hexact hring clock text
    rw [h] at hspec
    cases hspec with
    | ok hsealed hclock => exact ⟨_, hclock, hsealed⟩
  · rintro ⟨expiry, hclock, hsealed⟩
    rw [hsealed.unseals hcipher hring clock, if_neg (Int.not_le.mpr hclock)]

/-- Whenever a text is unsealed, it has the same payload. -/
theorem unsealPayload_unique {clock' : Instant} {payload payload' : List UInt8}
    (h : ring.unsealPayload cipher clock text = .ok payload)
    (h' : ring.unsealPayload cipher clock' text = .ok payload') : payload' = payload := by
  obtain ⟨expiry, -, hsealed⟩ := (unsealPayload_eq_ok_iff hcipher hexact hring).mp h
  rw [hsealed.unseals hcipher hring clock', Outcome.ite_error_eq_ok_iff] at h'
  exact (Except.ok.inj h'.2).symm

/-- A text is reported as expired just when it is an envelope that has. -/
theorem unsealPayload_eq_expired_iff :
    ring.unsealPayload cipher clock text = .error .expired ↔
      ∃ expiry payload, expiry ≤ clock.seconds ∧ ring.Sealed cipher text expiry payload := by
  constructor
  · intro h
    have hspec := unsealed_unsealPayload hcipher hexact hring clock text
    rw [h] at hspec
    cases hspec with
    | expired hsealed hclock => exact ⟨_, _, hclock, hsealed⟩
  · rintro ⟨expiry, payload, hclock, hsealed⟩
    rw [hsealed.unseals hcipher hring clock, if_pos hclock]

/-- A text is reported as malformed just when it is no envelope. -/
theorem unsealPayload_eq_malformed_iff :
    ring.unsealPayload cipher clock text = .error .malformed ↔ Envelope.MalformedText text := by
  constructor
  · intro h
    have hspec := unsealed_unsealPayload hcipher hexact hring clock text
    rw [h] at hspec
    cases hspec with
    | malformed hmalformed => exact hmalformed
  · intro h
    rw [unsealPayload, Envelope.malformedText_iff.mp h]

/-- A text is reported as tampered with just when it is an envelope, but none of the ring. -/
theorem unsealPayload_eq_tampered_iff :
    ring.unsealPayload cipher clock text = .error .tampered ↔
      ¬Envelope.MalformedText text ∧ ∀ expiry payload, ¬ring.Sealed cipher text expiry payload := by
  have hspec := unsealed_unsealPayload hcipher hexact hring clock text
  constructor
  · intro h
    rw [h] at hspec
    cases hspec with
    | tampered hformed hforeign => exact ⟨hformed, hforeign⟩
  · rintro ⟨hformed, hforeign⟩
    generalize ring.unsealPayload cipher clock text = answer at hspec ⊢
    cases hspec with
    | malformed hmalformed => exact absurd hmalformed hformed
    | tampered => rfl
    | expired hsealed hclock => exact absurd hsealed (hforeign _ _)
    | ok hsealed hclock => exact absurd hsealed (hforeign _ _)

/-- Unsealing never reports that encryption failed. -/
theorem unsealPayload_ne_encryption (detail : String) :
    ring.unsealPayload cipher clock text ≠ .error (.encryption detail) := by
  intro h
  have hspec := unsealed_unsealPayload hcipher hexact hring clock text
  rw [h] at hspec
  cases hspec

end Answers

/-- A ring unseals exactly the envelopes that one of its keys makes, until they expire, and gives
back the payload; it reports as expired exactly those that have, as malformed exactly the texts that
are no envelope, as tampered with everything else, and never that encryption failed. Taking an
envelope and its contents apart never runs past their ends. So every ring in which the current
identifier of a ring has the same key unseals whatever that ring seals, and no two texts stand for
the same envelope. -/
theorem unseals_exactly {ring : Keyring} (hring : ring.Reachable) :
    (∀ (clock : Instant) (text : String),
      (∀ payload, ring.unsealPayload Gcm.aead clock text = .ok payload ↔
        ∃ expiry, clock.seconds < expiry ∧ ring.Sealed Gcm.aead text expiry payload) ∧
      (ring.unsealPayload Gcm.aead clock text = .error .expired ↔
        ∃ expiry payload, expiry ≤ clock.seconds ∧ ring.Sealed Gcm.aead text expiry payload) ∧
      (ring.unsealPayload Gcm.aead clock text = .error .malformed ↔ Envelope.MalformedText text) ∧
      (ring.unsealPayload Gcm.aead clock text = .error .tampered ↔
        ¬Envelope.MalformedText text ∧
          ∀ expiry payload, ¬ring.Sealed Gcm.aead text expiry payload) ∧
      ∀ detail, ring.unsealPayload Gcm.aead clock text ≠ .error (.encryption detail)) ∧
    (∀ bytes parts, Envelope.split? bytes = some parts →
      parts.Joins bytes ∧ ∀ key content,
        Gcm.aead.decrypt key parts.nonce parts.header parts.hidden = some content →
          8 ≤ content.length) ∧
    (∀ other : Keyring, other.Reachable →
      other.find? ring.currentId = ring.find? ring.currentId →
      ∀ payload expiry nonce text, Envelope.IsExpiry expiry →
        ring.sealPayload Gcm.aead payload expiry nonce = .ok text →
        ∀ clock : Instant, clock.seconds < expiry →
          other.unsealPayload Gcm.aead clock text = .ok payload) ∧
    ∀ text text' bytes, Text.Base64.decodeUrl? text = some bytes →
      Text.Base64.decodeUrl? text' = some bytes → text = text' := by
  have hcipher := Crypto.Gcm.aead_seals
  have hexact := Crypto.Gcm.aead_exact
  have hsound := hring.sound
  refine ⟨fun clock text => ⟨fun payload => unsealPayload_eq_ok_iff hcipher hexact hsound,
    unsealPayload_eq_expired_iff hcipher hexact hsound,
    unsealPayload_eq_malformed_iff hcipher hexact hsound,
    unsealPayload_eq_tampered_iff hcipher hexact hsound,
    unsealPayload_ne_encryption hcipher hexact hsound⟩, ?_, ?_, ?_⟩
  · intro bytes parts hsplit
    have hjoins := Envelope.joins_of_split? hsplit
    exact ⟨hjoins, fun key content => le_length_of_decrypt hcipher hexact hjoins⟩
  · intro other hother hsame payload expiry nonce text hexpiry hseal clock hclock
    have hsealed := sealed_of_sealPayload hexpiry hseal hsame
    rw [hsealed.unseals hcipher hother.sound clock, if_neg (Int.not_le.mpr hclock)]
  · intro text text' bytes htext htext'
    rw [← Text.Base64.decodeUrl?_eq_some_iff.mp htext,
      Text.Base64.decodeUrl?_eq_some_iff.mp htext']

/-- A ring of one key opens what it sealed, also with an expiry before 1970, until it expires; a
text with a character that no digit is written as is malformed. -/
theorem unseals_exactly_sample :
    ∃ ring text, Keyring.new "k" ⟨List.replicate 32 7, by decide⟩ = .ok ring ∧
      ring.sealPayload Gcm.aead [1, 2, 3] (-5) ⟨List.replicate 12 0, by decide⟩ = .ok text ∧
      ∀ clock : Instant,
        (clock.seconds < -5 → ring.unsealPayload Gcm.aead clock text = .ok [1, 2, 3]) ∧
        (-5 ≤ clock.seconds → ring.unsealPayload Gcm.aead clock text = .error .expired) ∧
        ring.unsealPayload Gcm.aead clock "!" = .error .malformed := by
  obtain ⟨ring, hnew⟩ : ∃ ring, Keyring.new "k" ⟨List.replicate 32 7, by decide⟩ = .ok ring :=
    ⟨_, rfl⟩
  have hring : ring.Reachable := .new hnew
  obtain ⟨hanswers, -, hopens, -⟩ := unseals_exactly hring
  obtain ⟨text, htext⟩ := exists_sealPayload Crypto.Gcm.aead_seals hring.sound
    (by decide : (Envelope.content (-5) [1, 2, 3]).length ≤ Crypto.Gcm.maxTextLength)
    ⟨List.replicate 12 0, by decide⟩
  have hexpiry : Envelope.IsExpiry (-5) := by decide
  refine ⟨ring, text, hnew, htext, fun clock => ⟨?_, fun hclock => ?_, ?_⟩⟩
  · exact hopens ring hring rfl [1, 2, 3] (-5) _ text hexpiry htext clock
  · exact (hanswers clock text).2.1.mpr ⟨-5, [1, 2, 3], hclock,
      sealed_of_sealPayload hexpiry htext rfl⟩
  · exact (hanswers clock "!").2.2.1.mpr (Envelope.malformedText_iff.mpr (by decide))

end Keyring

end OpaqueTokens
