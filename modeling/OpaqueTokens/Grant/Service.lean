import OpaqueTokens.Claims.Derivation
import OpaqueTokens.Grant.Validator

/-!
# The token service

The service issues codes, redeems codes and refresh tokens for token sets, validates access
tokens and revokes lineages. Every operation is a function of the state of the stores, what the
wall clock shows in its course, the time that the caller asks about, and the random values that it
may use. A code that passed validation stays used, also where a later step fails.
-/

namespace OpaqueTokens

open Time (Instant Reading)

/-- The random values of one operation: an identifier and a nonce for each token that it may
mint. -/
structure Draw where
  accessId : TokenId
  refreshId : TokenId
  accessNonce : Nonce
  refreshNonce : Nonce

/-- A request to redeem a code. -/
structure CodeExchange where
  code : String
  clientId : String
  redirectUri : Option String := none
  codeVerifier : Option String := none

/-- A request to redeem a refresh token. -/
structure RefreshExchange where
  refreshToken : String
  clientId : String
  scope : Option Scope := none

/-- The answer to a redeemed grant, with the claims of its access token. -/
structure TokenSet where
  accessToken : String
  refreshToken : Option String
  expiresIn : Nat
  scope : Scope
  claims : AccessClaims

/-- How a client presents the tokens of a set. -/
def TokenSet.tokenType : String := "Bearer"

/-- The answer as a document. -/
def TokenSet.toJson (set : TokenSet) : Json :=
  let refresh :=
    match set.refreshToken with
    | some token => [("refresh_token", Json.string token)]
    | none => []
  .object ([("access_token", .string set.accessToken)] ++ refresh ++
    [("token_type", .string TokenSet.tokenType), ("expires_in", Json.int set.expiresIn),
     ("scope", .string set.scope.joined)])

/-- A service. -/
structure Service (σ : Type) where
  config : Config
  codec : Codec
  stores : Stores σ

namespace Service

variable {σ : Type}

/-- What validates the grants of a service. Where the configuration asks for it, a code that is
used again revokes its lineage for as long as refresh tokens live. -/
def grantValidator (service : Service σ) : GrantValidator σ where
  codec := service.codec
  stores := service.stores
  replayRevocation :=
    if service.config.replay.revokeLineageOnReplay then
      some service.config.lifetimes.refreshToken
    else none

/-- What validates the access tokens of a service. -/
def accessValidator (service : Service σ) : AccessValidator σ :=
  ⟨service.codec, service.stores⟩

/-- Seals claims of the service's own making. -/
def sealClaims (service : Service σ) (nonce : Nonce) (claims : TokenClaims) :
    Except GrantError String :=
  (service.codec.issue nonce claims).mapError fun error =>
    .internal ("failed to seal token: " ++ error.message)

/-- Issues a code for claims of the configured issuer that live no longer than configured. -/
def issueCode (service : Service σ) (nonce : Nonce) (claims : CodeClaims) :
    Except GrantError String :=
  let c := claims.common
  if c.issuer ≠ service.config.issuer then
    .error (.internal "authorization code issuer mismatch")
  else if c.issuedAt.after service.config.lifetimes.authorizationCode < c.expiresAt then
    .error (.internal "code lifetime exceeds configuration")
  else service.sealClaims nonce (.code claims)

/-- Issues an access token for given claims. -/
def issueAccess (service : Service σ) (nonce : Nonce) (claims : AccessClaims) :
    Except GrantError String :=
  service.sealClaims nonce (.access claims)

/-- Seals an access token and makes the set around it. -/
def tokenSet (service : Service σ) (nonce : Nonce) (access : AccessClaims)
    (refreshToken : Option String) : Except GrantError TokenSet := do
  let accessToken ← service.sealClaims nonce (.access access)
  pure {
    accessToken
    refreshToken
    expiresIn := access.common.expiresIn access.common.issuedAt
    scope := access.common.scope
    claims := access }

/-- Whether a request repeats the redirect address that a code is bound to; where the code is
bound to none, any address will do. -/
def redirectMatches (bound sent : Option String) : Bool :=
  match bound with
  | none => true
  | some uri => sent = some uri

/-- Whether redeeming a code leads to a refresh token. -/
def mintsRefresh (service : Service σ) (code : CodeClaims) : Bool :=
  !service.config.refresh.requireOfflineAccess || code.common.scope.hasOfflineAccess

/-- Mints the tokens of a redeemed code. -/
def mint (service : Service σ) (now : Instant) (draw : Draw) (code : CodeClaims) :
    Except GrantError TokenSet := do
  let lifetimes := service.config.lifetimes
  let access ← (code.accessToken lifetimes.accessToken now draw.accessId).mapError .ofClaims
  let refreshToken ←
    if service.mintsRefresh code then do
      let refresh ←
        (code.refreshToken lifetimes.refreshToken now draw.refreshId).mapError .ofClaims
      let token ← service.sealClaims draw.refreshNonce (.refresh refresh)
      pure (some token)
    else pure none
  service.tokenSet draw.accessNonce access refreshToken

/-- The steps after a code is accepted: the redirect address, the challenge, the tokens. -/
def redeem (service : Service σ) (now : Instant) (draw : Draw) (request : CodeExchange)
    (grant : ValidatedGrant) : Except GrantError TokenSet := do
  if redirectMatches grant.common.redirectUri request.redirectUri then
    (service.config.pkce.verifyGrant grant request.codeVerifier).mapError .ofPkce
    match grant with
    | .code code => service.mint now draw code
    | .refresh _ => throw (.internal "validated code grant changed kind")
  else throw (.invalidGrant .redirectMismatch)

/-- Redeems a code at a time that the caller names. -/
def exchange (service : Service σ) (moments : Moments) (now : Reading) (draw : Draw)
    (request : CodeExchange) (state : σ) : σ × Except GrantError TokenSet :=
  let (state, outcome) := service.grantValidator.validate moments now request.code
    .authorizationCode request.clientId state
  (state, outcome.bind (service.redeem now.universal draw request))

/-- Mints the access token of a refresh. -/
def renew (service : Service σ) (now : Instant) (draw : Draw) (request : RefreshExchange)
    (grant : ValidatedGrant) : Except GrantError TokenSet := do
  match grant with
  | .refresh refresh =>
    let access ← refresh.accessToken request.scope service.config.lifetimes.accessToken now
      draw.accessId
    service.tokenSet draw.accessNonce access none
  | .code _ => throw (.internal "validated refresh grant changed kind")

/-- Redeems a refresh token at a time that the caller names. -/
def refresh (service : Service σ) (moments : Moments) (now : Reading) (draw : Draw)
    (request : RefreshExchange) (state : σ) : σ × Except GrantError TokenSet :=
  let (state, outcome) := service.grantValidator.validate moments now request.refreshToken
    .refreshToken request.clientId state
  (state, outcome.bind (service.renew now.universal draw request))

/-- Validates an access token at a time that the caller names. -/
def validateAccess (service : Service σ) (moments : Moments) (now : Instant) (token : String)
    (state : σ) : Except GrantError AccessClaims :=
  service.accessValidator.validate moments now token state

/-- The claims that a request for revocation is about: those of a refresh token, or else of an
access token. A token that is neither leaves nothing to revoke, and only a sealer that is broken
is an error. -/
def revocable (service : Service σ) (moments : Moments) (token : String) :
    Except GrantError (Option TokenClaims) :=
  let ignore (error : CodecError) : Except GrantError (Option TokenClaims) :=
    match error with
    | .sealing error =>
      if error.isRejection then .ok none else .error (.internal error.message)
    | _ => .ok none
  match service.codec.parseRefresh moments.unsealing token with
  | .ok claims => .ok (some (.refresh claims))
  | .error error =>
    if error.isTypeMismatch then
      match service.codec.parseAccess moments.lookup token with
      | .ok claims => .ok (some (.access claims))
      | .error error => ignore error
    else ignore error

/-- Revokes the lineage of a client's token, for as long as a token of the lineage can live. -/
def revoke (service : Service σ) (moments : Moments) (token client : String) (state : σ) :
    σ × Except GrantError Unit :=
  match service.revocable moments token with
  | .error error => (state, .error error)
  | .ok none => (state, .ok ())
  | .ok (some claims) =>
    let c := claims.common
    if c.clientId.text ≠ client then (state, .error (.invalidGrant .clientMismatch))
    else if c.isExpiredAt moments.start then (state, .ok ())
    else
      service.stores.revoke state c.lineage
        (moments.start.reading.after service.config.lifetimes.refreshToken)

end Service

end OpaqueTokens
