import OpaqueTokens.Proofs.Claims.Nesting
import OpaqueTokens.Proofs.Scope

/-!
# Claims within a grant

Claims are contained in a grant if they are about the same grant and cover no more of it: all that
identifies the grant is the same, the scope is a part of its scope, and the attributes are those of
the grant if the scope is all of it, and none otherwise. What is derived from claims is contained in
them, and containment goes on from one derivation to the next.
-/

namespace OpaqueTokens

open Time (Instant Span)

/-- Claims are contained in those of a grant. Identifier and lifetime are their own. -/
structure Claims.ContainedIn (claims grant : Claims) : Prop where
  lineage : claims.lineage = grant.lineage
  clientId : claims.clientId = grant.clientId
  issuer : claims.issuer = grant.issuer
  principal : claims.principal = grant.principal
  subject : claims.subject = grant.subject
  acr : claims.acr = grant.acr
  authTime : claims.authTime = grant.authTime
  redirectUri : claims.redirectUri = grant.redirectUri
  audience : claims.audience = grant.audience
  nonce : claims.nonce = grant.nonce
  scope : grant.scope.containsAll claims.scope = true
  whole : claims.scope = grant.scope →
    claims.consent = grant.consent ∧ claims.delivery = grant.delivery
  part : claims.scope ≠ grant.scope → claims.consent = .empty ∧ claims.delivery = .empty

namespace Claims

/-- A grant is contained in itself. -/
theorem ContainedIn.refl (claims : Claims) : claims.ContainedIn claims where
  lineage := rfl
  clientId := rfl
  issuer := rfl
  principal := rfl
  subject := rfl
  acr := rfl
  authTime := rfl
  redirectUri := rfl
  audience := rfl
  nonce := rfl
  scope := Scope.containsAll_self claims.scope
  whole _ := ⟨rfl, rfl⟩
  part h := absurd rfl h

/-- What is contained in claims that are contained in a grant is contained in the grant. -/
theorem ContainedIn.trans {derived claims grant : Claims} (h : derived.ContainedIn claims)
    (hgrant : claims.ContainedIn grant) : derived.ContainedIn grant where
  lineage := h.lineage.trans hgrant.lineage
  clientId := h.clientId.trans hgrant.clientId
  issuer := h.issuer.trans hgrant.issuer
  principal := h.principal.trans hgrant.principal
  subject := h.subject.trans hgrant.subject
  acr := h.acr.trans hgrant.acr
  authTime := h.authTime.trans hgrant.authTime
  redirectUri := h.redirectUri.trans hgrant.redirectUri
  audience := h.audience.trans hgrant.audience
  nonce := h.nonce.trans hgrant.nonce
  scope := Scope.containsAll_trans hgrant.scope h.scope
  whole heq := by
    -- What lies between the whole grant and the whole grant is the whole grant.
    have hclaims : claims.scope = grant.scope :=
      Scope.containsAll_antisymm (heq ▸ h.scope) hgrant.scope
    obtain ⟨hconsent, hdelivery⟩ := h.whole (heq.trans hclaims.symm)
    obtain ⟨hconsent', hdelivery'⟩ := hgrant.whole hclaims
    exact ⟨hconsent.trans hconsent', hdelivery.trans hdelivery'⟩
  part hne := by
    by_cases hsame : derived.scope = claims.scope
    · obtain ⟨hconsent, hdelivery⟩ := h.whole hsame
      obtain ⟨hconsent', hdelivery'⟩ := hgrant.part (hsame ▸ hne)
      exact ⟨hconsent.trans hconsent', hdelivery.trans hdelivery'⟩
    · exact h.part hsame

/-- What is derived from claims is contained in them and covers all of their scope. -/
theorem contained_of_derive {claims derived : Claims} {lifetime : Span} {now : Instant}
    {fresh : TokenId} (hauthTime : claims.authTime.floor = claims.authTime)
    (h : claims.derive lifetime now fresh = .ok derived) :
    derived.ContainedIn claims ∧ derived.scope = claims.scope := by
  obtain ⟨expiry, -, -, rfl⟩ := spec_of_derive h
  exact ⟨{ ContainedIn.refl claims with authTime := hauthTime }, rfl⟩

end Claims

namespace RefreshClaims

/-- What is granted and requested is granted. -/
theorem containsAll_effectiveScope (refresh : RefreshClaims) (requested : Option Scope) :
    refresh.common.scope.containsAll (refresh.effectiveScope requested) = true := by
  cases requested with
  | none => exact Scope.containsAll_self _
  | some requested => exact Scope.containsAll_intersection _ requested

/-- Claims that are cut down to a part of their scope are contained in the ones before. -/
theorem contained_narrowed (refresh : RefreshClaims) {scope : Scope}
    (hscope : refresh.common.scope.containsAll scope = true) :
    (refresh.narrowed scope).ContainedIn refresh.common ∧
      (refresh.narrowed scope).scope = scope := by
  unfold narrowed
  split
  · rename_i hsame
    exact ⟨.refl _, hsame.symm⟩
  · rename_i hpart
    exact ⟨{ Claims.ContainedIn.refl refresh.common with
      scope := hscope
      whole := fun hsame => absurd hsame hpart
      part := fun _ => ⟨rfl, rfl⟩ }, rfl⟩

/-- A refresh leads to an access token just when it does not cut a scope down to nothing and the
claims of the token can be derived. -/
theorem accessToken_eq_ok_iff {refresh : RefreshClaims} {requested : Option Scope}
    {lifetime : Span} {now : Instant} {fresh : TokenId} {access : AccessClaims} :
    refresh.accessToken requested lifetime now fresh = .ok access ↔
      ((refresh.effectiveScope requested).isEmpty = true → refresh.common.scope.isEmpty = true) ∧
        (refresh.narrowed (refresh.effectiveScope requested)).derive lifetime now fresh =
          .ok access.common := by
  rw [accessToken, Outcome.ite_error_eq_ok_iff, Outcome.mapError_eq_ok_iff,
    Outcome.map_eq_ok_iff]
  refine and_congr (by simp) ⟨?_, fun h => ⟨access.common, h, rfl⟩⟩
  rintro ⟨derived, hderived, rfl⟩
  exact hderived

end RefreshClaims

end OpaqueTokens
