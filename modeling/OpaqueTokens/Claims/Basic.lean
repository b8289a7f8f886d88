import OpaqueTokens.Identifier
import OpaqueTokens.Json.Value
import OpaqueTokens.Scope
import OpaqueTokens.Time.Instant
import OpaqueTokens.TokenType

/-!
# Claims

What a token says about a grant: who it was given to, by whom and for whom, what it covers and
until when. The claims of all three kinds of tokens are the same, except that a code may carry
the challenge of the client that asked for it.
-/

namespace OpaqueTokens

open Time (Instant)

/-- The attributes that a user was asked to release, and the ones that the user agreed to. -/
@[ext]
structure Consent where
  consentable : List String := []
  consented : List String := []
  deriving DecidableEq

namespace Consent

/-- Nothing asked and nothing agreed to. -/
def empty : Consent := {}

/-- Whether the user agreed to release an attribute. -/
def isConsented (consent : Consent) (name : String) : Bool :=
  consent.consented.contains name

/-- Whether nothing was asked and nothing agreed to. -/
def isEmpty (consent : Consent) : Bool :=
  consent.consentable.isEmpty && consent.consented.isEmpty

end Consent

/-- The attributes that are delivered with a token: everywhere, in identity tokens only, or by
the userinfo endpoint only. -/
@[ext]
structure Delivery where
  general : Bag := .empty
  idToken : Bag := .empty
  userinfo : Bag := .empty
  deriving DecidableEq

namespace Delivery

/-- No attributes. -/
def empty : Delivery := {}

/-- The attributes of identity tokens; the special ones override the general ones. -/
def forIdToken (delivery : Delivery) : Bag :=
  delivery.general.merge delivery.idToken

/-- The attributes of the userinfo endpoint; the special ones override the general ones. -/
def forUserinfo (delivery : Delivery) : Bag :=
  delivery.general.merge delivery.userinfo

/-- Whether there are no attributes at all. -/
def isEmpty (delivery : Delivery) : Bool :=
  delivery.general.isEmpty && delivery.idToken.isEmpty && delivery.userinfo.isEmpty

end Delivery

/-- The claims that every kind of token carries. The lineage is the same in all tokens that
descend from one code. -/
@[ext]
structure Claims where
  id : TokenId
  lineage : TokenId
  clientId : ClientId
  issuer : String
  principal : String
  subject : String
  acr : Option String
  issuedAt : Instant
  expiresAt : Instant
  authTime : Instant
  redirectUri : Option String
  audience : List String
  scope : Scope
  nonce : Option String
  consent : Consent
  delivery : Delivery
  deriving DecidableEq

namespace Claims

/-- Claims expire at the instant that they name, not after it. -/
def isExpiredAt (claims : Claims) (now : Instant) : Bool :=
  claims.expiresAt ≤ now

/-- The whole seconds until the claims expire; zero once they have. -/
def expiresIn (claims : Claims) (now : Instant) : Nat :=
  now.secondsUntil claims.expiresAt

end Claims

/-- The claims of an authorization code, with the challenge in its stored form. -/
@[ext]
structure CodeClaims where
  common : Claims
  codeChallenge : Option String
  deriving DecidableEq

/-- The claims of an access token. -/
@[ext]
structure AccessClaims where
  common : Claims
  deriving DecidableEq

/-- The claims of a refresh token. -/
@[ext]
structure RefreshClaims where
  common : Claims
  deriving DecidableEq

/-- The claims of a token of any kind. -/
inductive TokenClaims where
  | code (claims : CodeClaims)
  | access (claims : AccessClaims)
  | refresh (claims : RefreshClaims)
  deriving DecidableEq

namespace TokenClaims

/-- The kind of token that the claims are of. -/
def type : TokenClaims → TokenType
  | .code _ => .authorizationCode
  | .access _ => .accessToken
  | .refresh _ => .refreshToken

/-- The claims that do not depend on the kind. -/
def common : TokenClaims → Claims
  | .code claims => claims.common
  | .access claims => claims.common
  | .refresh claims => claims.common

/-- The challenge, which only a code may carry. -/
def codeChallenge : TokenClaims → Option String
  | .code claims => claims.codeChallenge
  | .access _ | .refresh _ => none

/-- The claims of a code, if they are of one. -/
def code? : TokenClaims → Option CodeClaims
  | .code claims => some claims
  | .access _ | .refresh _ => none

/-- The claims of an access token, if they are of one. -/
def access? : TokenClaims → Option AccessClaims
  | .access claims => some claims
  | .code _ | .refresh _ => none

/-- The claims of a refresh token, if they are of one. -/
def refresh? : TokenClaims → Option RefreshClaims
  | .refresh claims => some claims
  | .code _ | .access _ => none

/-- The claims of a token of a kind; a challenge is dropped unless the kind is a code. -/
def ofType (type : TokenType) (common : Claims) (codeChallenge : Option String) : TokenClaims :=
  match type with
  | .authorizationCode => .code ⟨common, codeChallenge⟩
  | .accessToken => .access ⟨common⟩
  | .refreshToken => .refresh ⟨common⟩

@[simp] theorem type_ofType (type : TokenType) (common : Claims) (codeChallenge : Option String) :
    (ofType type common codeChallenge).type = type := by
  cases type <;> rfl

@[simp] theorem common_ofType (type : TokenType) (common : Claims)
    (codeChallenge : Option String) : (ofType type common codeChallenge).common = common := by
  cases type <;> rfl

end TokenClaims

end OpaqueTokens
