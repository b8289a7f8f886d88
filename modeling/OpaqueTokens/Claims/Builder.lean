import OpaqueTokens.Claims.Basic

/-!
# Building claims

All claims come out of one function: claims of new codes, claims derived from other claims, and
claims read back from a token. It cuts instants to whole seconds, fills in what may be left out,
and refuses claims without a client, an issuer or a subject and claims that would not be valid
for a second.
-/

namespace OpaqueTokens

open Time (Instant Reading Span)

/-- Why claims cannot be built. -/
inductive ClaimsError where
  | missingField (name : String)
  | invalidLifetime
  deriving DecidableEq, Repr

def ClaimsError.message : ClaimsError → String
  | .missingField name => "Missing required claim: " ++ name
  | .invalidLifetime => "Claims must expire at least one second after issuance"

/-- The claims of a token to be, where only client, issuer and subject must be given. -/
structure ClaimsBuilder where
  clientId : ClientId
  issuer : String
  subject : String
  id : Option TokenId := none
  lineage : Option TokenId := none
  principal : Option String := none
  acr : Option String := none
  issuedAt : Option Reading := none
  lifetime : Option Span := none
  expiresAt : Option Reading := none
  authTime : Option Reading := none
  redirectUri : Option String := none
  audience : List String := []
  scope : Scope := .empty
  nonce : Option String := none
  consent : Consent := .empty
  delivery : Delivery := .empty

namespace ClaimsBuilder

/-- How long claims are valid that name neither an expiry nor a lifetime: five minutes. -/
def defaultLifetime : Span := .fiveMinutes

/-- The whole second of issuance; claims that name none are issued now. -/
def issuance (builder : ClaimsBuilder) (now : Instant) : Instant :=
  ((builder.issuedAt.map Reading.universal).getD now).floor

/-- The whole second of expiry: the one that is named, or else the lifetime after issuance. There
is none where the lifetime leads past the last instant. -/
def expiry? (builder : ClaimsBuilder) (now : Instant) : Option Instant :=
  match builder.expiresAt with
  | some reading => some reading.universal.floor
  | none =>
    ((builder.issuance now).add? (builder.lifetime.getD defaultLifetime)).map Instant.floor

/-- The name of the first field among client, issuer and subject that is empty. -/
def emptyField? (builder : ClaimsBuilder) : Option String :=
  if builder.clientId.text = "" then some "client_id"
  else if builder.issuer = "" then some "issuer"
  else if builder.subject = "" then some "subject"
  else none

/-- Builds the claims. The fresh identifier is used where none is given, and the identifier
starts a lineage of its own where no lineage is given. -/
def build (builder : ClaimsBuilder) (now : Instant) (fresh : TokenId) :
    Except ClaimsError Claims :=
  match builder.emptyField? with
  | some name => .error (.missingField name)
  | none =>
    match builder.expiry? now with
    | none => .error .invalidLifetime
    | some expiresAt =>
      let issuedAt := builder.issuance now
      if expiresAt ≤ issuedAt then .error .invalidLifetime
      else
        let id := builder.id.getD fresh
        .ok {
          id
          lineage := builder.lineage.getD id
          clientId := builder.clientId
          issuer := builder.issuer
          principal := builder.principal.getD builder.subject
          subject := builder.subject
          acr := builder.acr
          issuedAt
          expiresAt
          authTime := (builder.authTime.map (·.universal.floor)).getD issuedAt
          redirectUri := builder.redirectUri
          audience := builder.audience
          scope := builder.scope
          nonce := builder.nonce
          consent := builder.consent
          delivery := builder.delivery }

end ClaimsBuilder

/-- A builder of claims that follow from these: the same grant, with an identifier and a lifetime
of its own. -/
def Claims.successor (claims : Claims) : ClaimsBuilder where
  clientId := claims.clientId
  issuer := claims.issuer
  subject := claims.subject
  lineage := some claims.lineage
  principal := some claims.principal
  acr := claims.acr
  authTime := some ⟨claims.authTime, 0⟩
  redirectUri := claims.redirectUri
  audience := claims.audience
  scope := claims.scope
  nonce := claims.nonce
  consent := claims.consent
  delivery := claims.delivery

end OpaqueTokens
