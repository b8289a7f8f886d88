import OpaqueTokens.Claims.Builder
import OpaqueTokens.Proofs.Time.Instant

/-!
# What building establishes

Claims that were built name a client, an issuer and a subject, hold whole seconds only, and are
valid for at least one second. Nothing else is asked of them: claims with these properties come
out of a builder that is filled with their own fields.
-/

namespace OpaqueTokens

open Time (Instant Reading Span)

/-- Claims that came out of a builder. -/
def Claims.Built (claims : Claims) : Prop :=
  ∃ (builder : ClaimsBuilder) (now : Instant) (fresh : TokenId),
    builder.build now fresh = .ok claims

/-- What every builder sees to. -/
structure Claims.WellFormed (claims : Claims) : Prop where
  clientId_ne_empty : claims.clientId.text ≠ ""
  issuer_ne_empty : claims.issuer ≠ ""
  subject_ne_empty : claims.subject ≠ ""
  floor_issuedAt : claims.issuedAt.floor = claims.issuedAt
  floor_expiresAt : claims.expiresAt.floor = claims.expiresAt
  floor_authTime : claims.authTime.floor = claims.authTime
  issuedAt_lt : claims.issuedAt < claims.expiresAt

/-- What every builder sees to can be decided of claims. -/
instance (claims : Claims) : Decidable claims.WellFormed :=
  decidable_of_iff
    (claims.clientId.text ≠ "" ∧ claims.issuer ≠ "" ∧ claims.subject ≠ "" ∧
      claims.issuedAt.floor = claims.issuedAt ∧ claims.expiresAt.floor = claims.expiresAt ∧
      claims.authTime.floor = claims.authTime ∧ claims.issuedAt < claims.expiresAt)
    ⟨fun ⟨hclient, hissuer, hsubject, hissuedAt, hexpiresAt, hauthTime, hlt⟩ =>
      ⟨hclient, hissuer, hsubject, hissuedAt, hexpiresAt, hauthTime, hlt⟩,
     fun ⟨hclient, hissuer, hsubject, hissuedAt, hexpiresAt, hauthTime, hlt⟩ =>
      ⟨hclient, hissuer, hsubject, hissuedAt, hexpiresAt, hauthTime, hlt⟩⟩

namespace ClaimsBuilder

/-- The claims of a builder that expire at an instant. -/
def claimsUntil (builder : ClaimsBuilder) (now : Instant) (fresh : TokenId)
    (expiresAt : Instant) : Claims where
  id := builder.id.getD fresh
  lineage := builder.lineage.getD (builder.id.getD fresh)
  clientId := builder.clientId
  issuer := builder.issuer
  principal := builder.principal.getD builder.subject
  subject := builder.subject
  acr := builder.acr
  issuedAt := builder.issuance now
  expiresAt
  authTime := (builder.authTime.map (·.universal.floor)).getD (builder.issuance now)
  redirectUri := builder.redirectUri
  audience := builder.audience
  scope := builder.scope
  nonce := builder.nonce
  consent := builder.consent
  delivery := builder.delivery

/-- No field is empty just when client, issuer and subject all are there. -/
theorem emptyField?_eq_none_iff {builder : ClaimsBuilder} :
    builder.emptyField? = none ↔
      builder.clientId.text ≠ "" ∧ builder.issuer ≠ "" ∧ builder.subject ≠ "" := by
  unfold emptyField?
  split
  · simp_all
  · split
    · simp_all
    · split <;> simp_all

/-- A builder succeeds just when no field is empty and there is an expiry after the issuance. -/
theorem build_eq_ok_iff {builder : ClaimsBuilder} {now : Instant} {fresh : TokenId}
    {claims : Claims} :
    builder.build now fresh = .ok claims ↔
      builder.emptyField? = none ∧ ∃ expiresAt, builder.expiry? now = some expiresAt ∧
        builder.issuance now < expiresAt ∧ builder.claimsUntil now fresh expiresAt = claims := by
  unfold build
  cases builder.emptyField? with
  | some name => simp
  | none =>
    cases builder.expiry? now with
    | none => simp
    | some expiresAt =>
      by_cases hle : expiresAt ≤ builder.issuance now
      · have hnot : ¬builder.issuance now < expiresAt := Int.not_lt.mpr hle
        simp [hle, hnot]
      · have hlt : builder.issuance now < expiresAt := Int.not_le.mp hle
        simp [hle, hlt, claimsUntil]

/-- Where no field is empty, only the lifetime can be wrong. -/
theorem build_eq_error {builder : ClaimsBuilder} {now : Instant} {fresh : TokenId}
    {error : ClaimsError} (hempty : builder.emptyField? = none)
    (h : builder.build now fresh = .error error) : error = .invalidLifetime := by
  simp only [build, hempty] at h
  split at h
  · exact (Except.error.inj h).symm
  · split at h
    · exact (Except.error.inj h).symm
    · simp at h

/-- The issuance is a whole second. -/
theorem floor_issuance (builder : ClaimsBuilder) (now : Instant) :
    (builder.issuance now).floor = builder.issuance now :=
  Instant.floor_floor _

/-- The expiry is a whole second. -/
theorem floor_of_expiry?_eq_some {builder : ClaimsBuilder} {now expiresAt : Instant}
    (h : builder.expiry? now = some expiresAt) : expiresAt.floor = expiresAt := by
  unfold expiry? at h
  split at h
  · injection h with h
    rw [← h, Instant.floor_floor]
  · obtain ⟨i, -, rfl⟩ := Option.map_eq_some_iff.mp h
    exact Instant.floor_floor i

end ClaimsBuilder

namespace Claims

open ClaimsBuilder

/-- Built claims are well formed. -/
theorem Built.wellFormed {claims : Claims} (h : claims.Built) : claims.WellFormed := by
  obtain ⟨builder, now, fresh, hbuild⟩ := h
  obtain ⟨hempty, expiresAt, hexpiry, hlt, rfl⟩ := build_eq_ok_iff.mp hbuild
  obtain ⟨hclient, hissuer, hsubject⟩ := emptyField?_eq_none_iff.mp hempty
  refine ⟨hclient, hissuer, hsubject, floor_issuance builder now,
    floor_of_expiry?_eq_some hexpiry, ?_, hlt⟩
  cases hauth : builder.authTime with
  | none => simpa [claimsUntil, hauth] using floor_issuance builder now
  | some reading => simp [claimsUntil, hauth]

/-- A builder that is filled with the fields of claims. -/
def rebuilder (claims : Claims) : ClaimsBuilder where
  clientId := claims.clientId
  issuer := claims.issuer
  subject := claims.subject
  id := some claims.id
  lineage := some claims.lineage
  principal := some claims.principal
  acr := claims.acr
  issuedAt := some { instant := claims.issuedAt }
  expiresAt := some { instant := claims.expiresAt }
  authTime := some { instant := claims.authTime }
  redirectUri := claims.redirectUri
  audience := claims.audience
  scope := claims.scope
  nonce := claims.nonce
  consent := claims.consent
  delivery := claims.delivery

/-- Well-formed claims come out of a builder that is filled with their fields, whatever the clock
shows and whichever identifier is fresh. -/
theorem WellFormed.build_rebuilder {claims : Claims} (h : claims.WellFormed) (now : Instant)
    (fresh : TokenId) : claims.rebuilder.build now fresh = .ok claims := by
  refine build_eq_ok_iff.mpr ⟨emptyField?_eq_none_iff.mpr
    ⟨h.clientId_ne_empty, h.issuer_ne_empty, h.subject_ne_empty⟩, claims.expiresAt, ?_, ?_, ?_⟩
  · simp [expiry?, rebuilder, Reading.universal, h.floor_expiresAt]
  · simpa [issuance, rebuilder, Reading.universal, h.floor_issuedAt] using h.issuedAt_lt
  · ext <;> simp [claimsUntil, issuance, rebuilder, Reading.universal, h.floor_issuedAt,
      h.floor_authTime]

/-- Claims can be built just when they are well formed. -/
theorem built_iff_wellFormed {claims : Claims} : claims.Built ↔ claims.WellFormed :=
  ⟨Built.wellFormed, fun h => ⟨claims.rebuilder, Instant.last, claims.id, h.build_rebuilder _ _⟩⟩

end Claims

end OpaqueTokens
