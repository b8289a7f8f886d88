import OpaqueTokens.Claims.Basic

/-!
# Claims as shown to people

Every claim under its full name, the absent ones as null, with the names in order.
-/

namespace OpaqueTokens

open Json (int)

namespace Report

/-- A text, or null. -/
def optional : Option String → Json
  | some text => .string text
  | none => .null

/-- A list of texts. -/
def texts (values : List String) : Json :=
  .array (values.map .string)

end Report

open Report in
/-- The full description of claims. -/
def TokenClaims.report (claims : TokenClaims) : Json :=
  let c := claims.common
  .object [
    ("acr", optional c.acr),
    ("audience", texts c.audience),
    ("auth_time", int c.authTime.seconds),
    ("client_id", .string c.clientId.text),
    ("code_challenge", optional claims.codeChallenge),
    ("consent", .object [
      ("consentable", texts c.consent.consentable),
      ("consented", texts c.consent.consented)]),
    ("delivery", .object [
      ("general", c.delivery.general.toJson),
      ("id_token", c.delivery.idToken.toJson),
      ("userinfo", c.delivery.userinfo.toJson)]),
    ("expires_at", int c.expiresAt.seconds),
    ("id", .string c.id.text),
    ("issued_at", int c.issuedAt.seconds),
    ("issuer", .string c.issuer),
    ("lineage_id", .string c.lineage.text),
    ("nonce", optional c.nonce),
    ("redirect_uri", optional c.redirectUri),
    ("scope", .string c.scope.joined),
    ("subject", .string c.subject),
    ("token_type", .string claims.type.name),
    ("user_principal", .string c.principal)]

end OpaqueTokens
