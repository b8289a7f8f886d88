import OpaqueTokens.Claims.Basic
import OpaqueTokens.Json.Writer

/-!
# The sealed form of claims

Claims are sealed as a document without blanks whose fields have short names and a fixed order.
A field is left out where it has nothing to say, so that reading must fill in exactly what was
left out.
-/

namespace OpaqueTokens.Wire

open Json (int)

/-- A field that is present. -/
def field (name : String) (value : Json) : List (String × Json) :=
  [(name, value)]

/-- A text field, left out where there is no text. -/
def optionalField (name : String) : Option String → List (String × Json)
  | some text => field name (.string text)
  | none => []

/-- A field of texts, left out where there are none. -/
def textsField (name : String) : List String → List (String × Json)
  | [] => []
  | texts => field name (.array (texts.map .string))

/-- The scope in its joined form, left out where it has no values. -/
def scopeField (name : String) (scope : Scope) : List (String × Json) :=
  if scope.isEmpty then [] else field name (.string scope.joined)

/-- A field of attributes, left out where there are none. -/
def bagField (name : String) (bag : Bag) : List (String × Json) :=
  if bag.isEmpty then [] else field name bag.toJson

/-- The fields of the sealed form in their order. -/
def fields (claims : TokenClaims) : List (String × Json) :=
  let c := claims.common
  field "typ" (.string claims.type.name) ++
  field "jti" (.string c.id.text) ++
  field "lin" (.string c.lineage.text) ++
  field "cid" (.string c.clientId.text) ++
  field "iss" (.string c.issuer) ++
  field "usr" (.string c.principal) ++
  field "sub" (.string c.subject) ++
  optionalField "acr" c.acr ++
  field "iat" (int c.issuedAt.seconds) ++
  field "exp" (int c.expiresAt.seconds) ++
  field "ath" (int c.authTime.seconds) ++
  optionalField "rdu" c.redirectUri ++
  textsField "aud" c.audience ++
  scopeField "scp" c.scope ++
  optionalField "nnc" c.nonce ++
  optionalField "cch" claims.codeChallenge ++
  textsField "cns" c.consent.consentable ++
  textsField "csd" c.consent.consented ++
  bagField "dlv" c.delivery.general ++
  bagField "dli" c.delivery.idToken ++
  bagField "dlu" c.delivery.userinfo

/-- The sealed form of claims. -/
def document (claims : TokenClaims) : Json :=
  .object (fields claims)

/-- The bytes that are sealed. -/
def encode (claims : TokenClaims) : List UInt8 :=
  (document claims).write

end OpaqueTokens.Wire
