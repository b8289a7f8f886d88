import OpaqueTokens.Grant.Error

/-!
# Deriving claims

A redeemed code leads to an access token and perhaps a refresh token, and a refresh token to
further access tokens. Derived claims are of the same grant. Only a refresh may cover less than
the grant; then the attributes that the user agreed to release are left out, since they were
agreed to for the whole.
-/

namespace OpaqueTokens

open Time (Instant Span)

/-- The claims that follow from others, issued now for a lifetime. -/
def Claims.derive (claims : Claims) (lifetime : Span) (now : Instant) (fresh : TokenId) :
    Except ClaimsError Claims :=
  { claims.successor with
    issuedAt := some { instant := now }
    lifetime := some lifetime }.build now fresh

/-- The access token of a redeemed code. -/
def CodeClaims.accessToken (code : CodeClaims) (lifetime : Span) (now : Instant)
    (fresh : TokenId) : Except ClaimsError AccessClaims :=
  (code.common.derive lifetime now fresh).map (⟨·⟩)

/-- The refresh token of a redeemed code. -/
def CodeClaims.refreshToken (code : CodeClaims) (lifetime : Span) (now : Instant)
    (fresh : TokenId) : Except ClaimsError RefreshClaims :=
  (code.common.derive lifetime now fresh).map (⟨·⟩)

namespace RefreshClaims

/-- The scope of a refreshed token: what was granted, cut down to what is requested. -/
def effectiveScope (refresh : RefreshClaims) (requested : Option Scope) : Scope :=
  match requested with
  | some requested => refresh.common.scope.intersection requested
  | none => refresh.common.scope

/-- The claims that a refresh starts from: the ones of the refresh token, without attributes if
the scope is cut down. -/
def narrowed (refresh : RefreshClaims) (scope : Scope) : Claims :=
  if scope = refresh.common.scope then refresh.common
  else { refresh.common with scope, consent := .empty, delivery := .empty }

/-- The access token of a refresh. -/
def accessToken (refresh : RefreshClaims) (requested : Option Scope) (lifetime : Span)
    (now : Instant) (fresh : TokenId) : Except GrantError AccessClaims :=
  let effective := refresh.effectiveScope requested
  if effective.isEmpty && !refresh.common.scope.isEmpty then
    .error (.invalidScope "requested scope does not overlap the granted scope")
  else
    (((refresh.narrowed effective).derive lifetime now fresh).map (⟨·⟩)).mapError .ofClaims

end RefreshClaims

end OpaqueTokens
