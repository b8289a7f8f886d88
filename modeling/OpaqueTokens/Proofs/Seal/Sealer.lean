import OpaqueTokens.Proofs.Crypto.Gcm
import OpaqueTokens.Proofs.Outcome
import OpaqueTokens.Proofs.Seal.Envelope
import OpaqueTokens.Proofs.Text.Base64
import OpaqueTokens.Seal.Sealer

/-!
# Rings and what they seal

A ring starts with one key and grows by others. Whatever is added, the current identifier keeps
its key, identifiers stay distinct, and each of them fits in an envelope. Therefore a ring finds
the key of every envelope that one of its keys can make, and unsealing gives back the payload until
it expires.
-/

namespace OpaqueTokens.Keyring

open Crypto (Aead)
open Time (Instant)

/-- The rings that come about by starting with one key and adding others. -/
inductive Reachable : Keyring → Prop where
  | new {id : String} {key : SealerKey} {ring : Keyring} (h : Keyring.new id key = .ok ring) :
    Reachable ring
  | add {ring grown : Keyring} {id : String} {key : SealerKey} (hring : Reachable ring)
    (h : ring.add id key = .ok grown) : Reachable grown

/-- What adding keys keeps: the current identifier has a key, identifiers are distinct, and each
of them fits in an envelope. -/
structure Sound (ring : Keyring) : Prop where
  current : ∃ key, ring.find? ring.currentId = some key
  distinct : (ring.keys.map (·.1)).Nodup
  ids_fit : ∀ id ∈ ring.keys.map (·.1), id ≠ "" ∧ (Text.utf8 id).length ≤ maxKeyIdLength

/-- An identifier is accepted just when it is neither empty nor too long. -/
theorem checkId_eq_ok_iff {id : String} :
    checkId id = .ok () ↔ id ≠ "" ∧ (Text.utf8 id).length ≤ maxKeyIdLength := by
  simp [checkId]

/-- An identifier is accepted just when it fits in a header. -/
theorem checkId_eq_ok_iff_fitsHeader {id : String} :
    checkId id = .ok () ↔ Envelope.FitsHeader id := by
  have hempty : id = "" ↔ (Text.utf8 id).length = 0 := by
    rw [List.length_eq_zero_iff]
    exact ⟨fun h => h ▸ rfl, fun h => Text.utf8_injective (h.trans rfl)⟩
  rw [checkId_eq_ok_iff, ne_eq, hempty, ← ne_eq, Nat.ne_zero_iff_zero_lt]
  rfl

/-- A ring is made just when its identifier is accepted. -/
theorem new_eq_ok_iff {id : String} {key : SealerKey} {ring : Keyring} :
    Keyring.new id key = .ok ring ↔ checkId id = .ok () ∧ ⟨id, [(id, key)]⟩ = ring := by
  unfold Keyring.new
  cases checkId id <;> simp [pure, Except.pure]

/-- A key is added just when its identifier is accepted and new. -/
theorem add_eq_ok_iff {ring grown : Keyring} {id : String} {key : SealerKey} :
    ring.add id key = .ok grown ↔
      checkId id = .ok () ∧ ring.find? id = none ∧
        { ring with keys := ring.keys ++ [(id, key)] } = grown := by
  unfold Keyring.add
  cases checkId id with
  | error error => simp
  | ok =>
    cases ring.find? id <;> simp [pure, Except.pure]

/-- An identifier without a key is not one of the ring's. -/
theorem find?_eq_none_iff {ring : Keyring} {id : String} :
    ring.find? id = none ↔ id ∉ ring.keys.map (·.1) := by
  simp only [find?, List.lookup_eq_none_iff, List.mem_map, not_exists, not_and]
  constructor
  · rintro h pair hpair rfl
    simpa using h pair hpair
  · intro h pair hpair
    simpa using fun heq : id = pair.1 => h pair hpair heq.symm

/-- Every ring that can be made is sound. -/
theorem Reachable.sound {ring : Keyring} (h : ring.Reachable) : ring.Sound := by
  induction h with
  | new h =>
    obtain ⟨hid, rfl⟩ := new_eq_ok_iff.mp h
    exact ⟨⟨_, List.lookup_cons_self⟩, by simp, by simpa using checkId_eq_ok_iff.mp hid⟩
  | add _ h ih =>
    obtain ⟨hid, hfresh, rfl⟩ := add_eq_ok_iff.mp h
    obtain ⟨⟨key, hkey⟩, hdistinct, hfit⟩ := ih
    refine ⟨⟨key, ?_⟩, ?_, ?_⟩
    · rw [find?] at hkey ⊢
      rw [List.lookup_append, hkey, Option.some_or]
    · rw [List.map_append, List.nodup_append]
      refine ⟨hdistinct, by simp, ?_⟩
      intro a ha b hb heq
      simp only [List.map_cons, List.map_nil, List.mem_singleton] at hb
      exact find?_eq_none_iff.mp hfresh (hb ▸ heq ▸ ha)
    · intro id hin
      rw [List.map_append, List.mem_append] at hin
      rcases hin with hin | hin
      · exact hfit id hin
      · simp only [List.map_cons, List.map_nil, List.mem_singleton] at hin
        exact hin ▸ checkId_eq_ok_iff.mp hid

/-- The identifier of a key fits in an envelope. -/
theorem Sound.length_lt {ring : Keyring} (h : ring.Sound) {id : String} {key : SealerKey}
    (hfind : ring.find? id = some key) : (Text.utf8 id).length < 256 := by
  have hin : id ∈ ring.keys.map (·.1) := Decidable.byContradiction fun hnot => by
    simp [find?_eq_none_iff.mpr hnot] at hfind
  have hle := (h.ids_fit id hin).2
  rw [maxKeyIdLength] at hle
  omega

/-- Every payload that the cipher can take is sealed. -/
theorem exists_sealPayload {cipher : Aead} {limit : Nat} (hcipher : cipher.Seals limit)
    {ring : Keyring} (hring : ring.Sound) {payload : List UInt8} {expiry : Int}
    (hlength : (Envelope.content expiry payload).length ≤ limit) (nonce : Nonce) :
    ∃ token, ring.sealPayload cipher payload expiry nonce = .ok token := by
  obtain ⟨key, hkey⟩ := hring.current
  obtain ⟨hidden, hhidden⟩ := hcipher.encrypts key.bytes nonce.bytes
    (Envelope.header ring.currentId) (Envelope.content expiry payload) hlength
  simp [sealPayload, hkey, hhidden]

/-- A payload that the cipher does not take is not sealed. -/
theorem sealPayload_of_encrypt_eq_none {cipher : Aead} {ring : Keyring} (hring : ring.Sound)
    {payload : List UInt8} {expiry : Int} {nonce : Nonce}
    (h : ∀ key, cipher.encrypt key nonce.bytes (Envelope.header ring.currentId)
      (Envelope.content expiry payload) = none) :
    ring.sealPayload cipher payload expiry nonce =
      .error (.encryption "AES-GCM encryption failed: aead::Error") := by
  obtain ⟨key, hkey⟩ := hring.current
  simp [sealPayload, hkey, h]

/-- A text is an envelope of a payload with an expiry that a key of the ring makes, with some
nonce. -/
def Sealed (cipher : Aead) (ring : Keyring) (text : String) (expiry : Int)
    (payload : List UInt8) : Prop :=
  Envelope.IsExpiry expiry ∧ ∃ (id : String) (key : SealerKey) (nonce : Nonce)
    (hidden : List UInt8), ring.find? id = some key ∧
      cipher.encrypt key.bytes nonce.bytes (Envelope.header id)
        (Envelope.content expiry payload) = some hidden ∧
      text = Text.Base64.encodeUrl (Envelope.header id ++ nonce.bytes ++ hidden)

/-- What is sealed with any key of a ring it unseals until the expiry, and then reports as
expired. -/
theorem Sealed.unseals {cipher : Aead} {limit : Nat} (hcipher : cipher.Seals limit)
    {ring : Keyring} (hring : ring.Sound) {text : String} {expiry : Int} {payload : List UInt8}
    (h : ring.Sealed cipher text expiry payload) (clock : Instant) :
    ring.unsealPayload cipher clock text =
      if expiry ≤ clock.seconds then .error .expired else .ok payload := by
  obtain ⟨⟨hlow, hhigh⟩, id, key, nonce, hidden, hkey, hhidden, rfl⟩ := h
  have hlength : 24 ≤ hidden.length := by
    rw [hcipher.length_hidden hhidden, Envelope.content, List.length_append,
      Envelope.length_expiryBytes]
    omega
  have hkeyOf : ring.keyOf? ⟨Envelope.header id, Text.utf8 id, nonce.bytes, hidden⟩ = some key := by
    rw [keyOf?, Text.ofUtf8?_utf8, Option.bind_some, hkey]
  have hexpiry : (Envelope.content expiry payload).take 8 = Envelope.expiryBytes expiry := by
    rw [Envelope.content, ← Envelope.length_expiryBytes expiry, List.take_left]
  have hpayload : (Envelope.content expiry payload).drop 8 = payload := by
    rw [Envelope.content, ← Envelope.length_expiryBytes expiry, List.drop_left]
  rw [unsealPayload, Text.Base64.decodeUrl?_encodeUrl, Option.bind_some,
    Envelope.split?_append (hring.length_lt hkey) nonce hlength]
  simp only [hkeyOf, hcipher.lawful _ _ _ _ _ hhidden, hexpiry, hpayload,
    Envelope.ofExpiryBytes_expiryBytes hlow hhigh]

/-- Sealing makes an envelope with the current key, which any ring with this key under the same
identifier could have made. -/
theorem sealed_of_sealPayload {cipher : Aead} {ring other : Keyring} {payload : List UInt8}
    {expiry : Int} (hexpiry : Envelope.IsExpiry expiry) {nonce : Nonce} {text : String}
    (h : ring.sealPayload cipher payload expiry nonce = .ok text)
    (hsame : other.find? ring.currentId = ring.find? ring.currentId) :
    other.Sealed cipher text expiry payload := by
  rw [sealPayload] at h
  cases hkey : ring.find? ring.currentId with
  | none => simp [hkey] at h
  | some key =>
    simp only [hkey] at h
    split at h
    · simp at h
    · rename_i hidden hhidden
      exact ⟨hexpiry, ring.currentId, key, nonce, hidden, hsame.trans hkey, hhidden,
        (Except.ok.inj h).symm⟩

end OpaqueTokens.Keyring

namespace OpaqueTokens

/-- What a sealer sealed it gives back until the expiry, and then reports as expired. -/
def Sealer.Faithful (sealer : Sealer) : Prop :=
  ∀ payload expiry nonce token, Envelope.IsExpiry expiry →
    sealer.sealPayload payload expiry nonce = .ok token →
      ∀ clock : Time.Instant, sealer.unsealPayload clock token =
        if expiry ≤ clock.seconds then .error .expired else .ok payload

/-- The sealer of a sound ring is faithful. -/
theorem Keyring.Sound.faithful {ring : Keyring} (hring : ring.Sound) {cipher : Crypto.Aead}
    {limit : Nat} (hcipher : cipher.Seals limit) : (ring.sealer cipher).Faithful := by
  intro payload expiry nonce token hexpiry hseal clock
  exact (sealed_of_sealPayload hexpiry hseal rfl).unseals hcipher hring clock

end OpaqueTokens
