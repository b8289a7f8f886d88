import OpaqueTokens.Proofs.Claims.Decoding
import OpaqueTokens.Proofs.Codec
import OpaqueTokens.Proofs.Seal.Opening
import OpaqueTokens.Proofs.TypeSafety

/-!
# What tokens read as

With the sealer of a ring a token reads as one set of claims at most, whenever and as whatever type
it is parsed. A token that the codec issued reads as the claims that it was issued for, but for what
the sealed form cannot carry; so its type, its lineage and its expiry are known beforehand.
-/

namespace OpaqueTokens.Codec

open Crypto (Gcm.aead Gcm.aead_exact Gcm.aead_seals)
open Time (Deadline)

/-- A token reads as claims: at some time it is parsed as them. -/
def Reads (codec : Codec) (token : String) (claims : TokenClaims) : Prop :=
  ∃ clock type, codec.parse clock token type = .ok claims

variable {ring : Keyring} {token : String} {claims read : TokenClaims}

/-- A token reads as the claims that it carries, if they are valid at some time. -/
theorem Carries.reads {codec : Codec} (h : codec.Carries token claims)
    {clock : Time.Instant} (hclock : clock < claims.common.expiresAt) : codec.Reads token claims :=
  ⟨clock, claims.type, h.parse hclock⟩

/-- A token reads as nothing else than what it carries. -/
theorem Carries.eq_of_reads {codec : Codec} (h : codec.Carries token claims)
    (hread : codec.Reads token read) : read = claims := by
  obtain ⟨clock, type, hparse⟩ := hread
  have hcarried := h clock
  by_cases htype : claims.type = type
  · subst htype
    rw [hcarried, Outcome.ite_error_eq_ok_iff] at hparse
    exact (Except.ok.inj hparse.2).symm
  · -- Parsed as its own type it would be of another one, and neither expired nor carried.
    rw [((codec.parse_consistent clock token).of_ok hparse).others claims.type htype] at hcarried
    split at hcarried <;> cases hcarried

/-- A token reads as nothing else than what it reads as. -/
theorem Reads.unique (hring : ring.Reachable) (h : (ofRing Gcm.aead ring).Reads token claims)
    (hread : (ofRing Gcm.aead ring).Reads token read) : read = claims := by
  obtain ⟨clock, type, hparse⟩ := h
  obtain ⟨clock', type', hparse'⟩ := hread
  obtain ⟨payload, hunseal, hdecode⟩ := parse_eq_ok_iff.mp hparse
  obtain ⟨payload', hunseal', hdecode'⟩ := parse_eq_ok_iff.mp hparse'
  obtain rfl :=
    Keyring.unsealPayload_unique Gcm.aead_seals Gcm.aead_exact hring.sound hunseal hunseal'
  have htype : type' = type :=
    ((Wire.decode_consistent payload').of_ok hdecode).unique
      ((Wire.decode_consistent payload').of_ok hdecode')
  subst htype
  exact Except.ok.inj (hdecode'.symm.trans hdecode)

/-- With a faithful sealer a token that was issued reads as the claims that it was issued for, but
for what the sealed form does not carry. -/
theorem Reads.of_issue_of_faithful {codec : Codec} (hsealer : codec.sealer.Faithful)
    {nonce : Nonce} (hissue : codec.issue nonce claims = .ok token)
    (hread : codec.Reads token read) :
    read.type = claims.type ∧ ∃ delivery, read.common = Wire.reread claims.common delivery := by
  obtain ⟨clock, type, hparse⟩ := hread
  rw [parse_of_issue_of_faithful hsealer hissue clock type, Outcome.ite_error_eq_ok_iff,
    Outcome.mapError_eq_ok_iff] at hparse
  obtain ⟨htype, hread, hcommon⟩ := Wire.of_decode_encode hparse.2
  exact ⟨hread.trans htype.symm, hcommon⟩

/-- What a token that was issued reads as. -/
theorem Reads.of_issue (hring : ring.Reachable) {nonce : Nonce}
    (hissue : (ofRing Gcm.aead ring).issue nonce claims = .ok token)
    (hread : (ofRing Gcm.aead ring).Reads token read) :
    read.type = claims.type ∧ ∃ delivery, read.common = Wire.reread claims.common delivery :=
  hread.of_issue_of_faithful (hring.sound.faithful Gcm.aead_seals) hissue

/-- Whatever a token reads as has an identifier. -/
def ReadsWithId (codec : Codec) (token : String) (id : TokenId) : Prop :=
  ∀ read, codec.Reads token read → read.common.id = id

/-- With a faithful sealer a token has the identifier that it was issued for. -/
theorem readsWithId_of_issue {codec : Codec} (hsealer : codec.sealer.Faithful) {nonce : Nonce}
    (hissue : codec.issue nonce claims = .ok token) : codec.ReadsWithId token claims.common.id := by
  intro read hread
  obtain ⟨-, delivery, hcommon⟩ := hread.of_issue_of_faithful hsealer hissue
  rw [hcommon]
  rfl

/-- Whatever a token reads as is of a lineage and expires by a deadline. -/
def ReadsWithin (codec : Codec) (token : String) (lineage : TokenId) (deadline : Deadline) : Prop :=
  ∀ read, codec.Reads token read →
    read.common.lineage = lineage ∧ read.common.expiresAt.deadline ≤ deadline

/-- A token is of the lineage that it was issued for, and expires no later. -/
theorem readsWithin_of_issue (hring : ring.Reachable) {nonce : Nonce} {deadline : Deadline}
    (hissue : (ofRing Gcm.aead ring).issue nonce claims = .ok token)
    (hexpiry : claims.common.expiresAt.deadline ≤ deadline) :
    (ofRing Gcm.aead ring).ReadsWithin token claims.common.lineage deadline := by
  intro read hread
  obtain ⟨-, delivery, hcommon⟩ := hread.of_issue hring hissue
  rw [hcommon]
  exact ⟨rfl, Int.le_trans claims.common.expiresAt.floor_le hexpiry⟩

end OpaqueTokens.Codec
