import OpaqueTokens.Codec
import OpaqueTokens.Grant.Stores

/-!
# Validating grants

A grant that is presented at the token endpoint must unseal, be of the right type, belong to the
client and not be expired. A code must not have been used before, and the lineage of a refresh
token must not be revoked. The checks are made in this order, and the first one that fails
decides the answer. A code counts as used once it gets to the last check. The clock is read anew
when a token is unsealed and when a store is asked, so that it may have moved on in between.
-/

namespace OpaqueTokens

open Time (Instant Reading Span)

/-- What the clock shows in the course of one call: at its start, when its token is unsealed, and
when a store is asked or the token is unsealed for the second time. -/
structure Moments where
  start : Instant
  unsealing : Instant
  lookup : Instant

namespace Moments

/-- A clock that stands still in the course of a call. -/
@[coe] abbrev still (clock : Instant) : Moments :=
  ⟨clock, clock, clock⟩

instance : Coe Instant Moments := ⟨still⟩

/-- The clock does not go back in the course of a call. -/
structure Ordered (moments : Moments) : Prop where
  start_le : moments.start ≤ moments.unsealing
  unsealing_le : moments.unsealing ≤ moments.lookup

end Moments

/-- A grant that passed the checks. -/
inductive ValidatedGrant where
  | code (claims : CodeClaims)
  | refresh (claims : RefreshClaims)
  deriving DecidableEq

namespace ValidatedGrant

/-- The kind of a grant. -/
def kind : ValidatedGrant → GrantKind
  | .code _ => .authorizationCode
  | .refresh _ => .refreshToken

/-- The claims that do not depend on the kind. -/
def common : ValidatedGrant → Claims
  | .code claims => claims.common
  | .refresh claims => claims.common

/-- The claims of a code, if the grant is one. -/
def code? : ValidatedGrant → Option CodeClaims
  | .code claims => some claims
  | .refresh _ => none

/-- The claims of a refresh token, if the grant is one. -/
def refresh? : ValidatedGrant → Option RefreshClaims
  | .refresh claims => some claims
  | .code _ => none

end ValidatedGrant

/-- Accepts a verifier for a grant. Only codes carry challenges. -/
def PkcePolicy.verifyGrant (policy : PkcePolicy) (grant : ValidatedGrant)
    (verifier : Option String) : Except PkceError Unit :=
  match grant with
  | .code claims => policy.verify claims.codeChallenge verifier
  | .refresh _ => .ok ()

/-- What validates grants. -/
structure GrantValidator (σ : Type) where
  codec : Codec
  stores : Stores σ
  /-- For how long the lineage of a code is revoked that is used again, if it is. -/
  replayRevocation : Option Span := none

namespace GrantValidator

variable {σ : Type}

/-- Accepts the first use of a code. A later use may revoke the tokens that descend from it. -/
def checkSingleUse (validator : GrantValidator σ) (clock : Instant) (now : Reading)
    (code : CodeClaims) (state : σ) : σ × Except GrantError Unit :=
  let c := code.common
  match validator.stores.checkReplay state c.id c.expiresAt clock with
  | (state, .error error) => (state, .error error)
  | (state, .ok true) => (state, .ok ())
  | (state, .ok false) =>
    match validator.replayRevocation with
    | none => (state, .error (.invalidGrant .replayed))
    | some span =>
      match validator.stores.revoke state c.lineage (now.after span) with
      | (state, .error error) => (state, .error error)
      | (state, .ok ()) => (state, .error (.invalidGrant .replayed))

/-- Accepts claims whose client and expiry fit, and then looks into the store. -/
def validateClaims (validator : GrantValidator σ) (clock : Instant) (now : Reading)
    (client : String) (claims : TokenClaims) (state : σ) : σ × Except GrantError ValidatedGrant :=
  let c := claims.common
  if c.clientId.text ≠ client then (state, .error (.invalidGrant .clientMismatch))
  else if c.isExpiredAt now.universal then (state, .error (.invalidGrant .expired))
  else
    match claims with
    | .code code =>
      let (state, outcome) := validator.checkSingleUse clock now code state
      (state, outcome.map fun _ => .code code)
    | .refresh refresh =>
      match validator.stores.isRevoked state c.lineage clock with
      | .error error => (state, .error error)
      | .ok true => (state, .error (.invalidGrant .revoked))
      | .ok false => (state, .ok (.refresh refresh))
    | .access _ => (state, .error (.invalidGrant .wrongType))

/-- Validates a grant at a time that the caller names. Sealing and marks go by the clock. -/
def validate (validator : GrantValidator σ) (moments : Moments) (now : Reading) (token : String)
    (kind : GrantKind) (client : String) (state : σ) : σ × Except GrantError ValidatedGrant :=
  match validator.codec.parse moments.unsealing token kind.tokenType with
  | .error error => (state, .error (.ofCodec error))
  | .ok claims => validator.validateClaims moments.lookup now client claims state

end GrantValidator

/-- What validates access tokens, which may be used any number of times. -/
structure AccessValidator (σ : Type) where
  codec : Codec
  stores : Stores σ

/-- Validates an access token at a time that the caller names. -/
def AccessValidator.validate {σ : Type} (validator : AccessValidator σ) (moments : Moments)
    (now : Instant) (token : String) (state : σ) : Except GrantError AccessClaims :=
  match validator.codec.parseAccess moments.unsealing token with
  | .error error => .error (.ofCodec error)
  | .ok access =>
    if access.common.isExpiredAt now then .error (.invalidGrant .expired)
    else
      match validator.stores.isRevoked state access.common.lineage moments.lookup with
      | .error error => .error error
      | .ok true => .error (.invalidGrant .revoked)
      | .ok false => .ok access

end OpaqueTokens
