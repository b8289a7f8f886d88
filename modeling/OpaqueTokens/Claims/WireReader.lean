import OpaqueTokens.Claims.Error
import OpaqueTokens.Claims.Wire
import OpaqueTokens.Json.Node

/-!
# Reading the sealed form

A payload is read for its type first, and for its claims only if the type is the one asked for.
The first look ignores every other field, however deep or strange; the second one wants each
known field at most once and of its kind. Either look ignores unknown fields. A list of one item
stands for a document with that type and no other field.
-/

namespace OpaqueTokens.Wire

open Json (Node)
open Time (Instant)

/-- The deepest nesting of lists and objects that an attribute may have; the document itself is
one level more. -/
def attributeDepth : Nat := 126

/-- The fields of a document whose names all are texts. -/
def documentFields? : Node → Option (List (String × Node))
  | .object fields => fields.mapM fun (name, value) => (Node.textOf? name).map (·, value)
  | .array [type] => some [("typ", type)]
  | _ => none

/-- The values of the fields of a name. -/
def valuesOf (fields : List (String × Node)) (name : String) : List Node :=
  fields.filterMap fun (other, value) => if other = name then some value else none

/-- Reads a field that may be left out or null. A field that occurs twice, or is not of its kind,
is refused. -/
def optional? {α : Type} (read? : Node → Option α) (fields : List (String × Node))
    (name : String) : Option (Option α) :=
  match valuesOf fields name with
  | [] | [.null] => some none
  | [value] => (read? value).map some
  | _ => none

/-- Reads a field that may be left out, for a default, but not null. -/
def defaulted? {α : Type} (read? : Node → Option α) (default : α)
    (fields : List (String × Node)) (name : String) : Option α :=
  match valuesOf fields name with
  | [] => some default
  | [value] => read? value
  | _ => none

/-- The attributes of an object. -/
def bag? (value : Node) : Option Bag :=
  match value.toJson? attributeDepth with
  | some (.object fields) => some (.ofFields fields)
  | _ => none

/-- The fields of a document, each of its kind. -/
structure Content where
  id : Option String
  lineage : Option String
  clientId : Option String
  issuer : Option String
  principal : Option String
  subject : Option String
  acr : Option String
  issuedAt : Option Int
  expiresAt : Option Int
  authTime : Option Int
  redirectUri : Option String
  audience : List String
  scope : Scope
  nonce : Option String
  codeChallenge : Option String
  consent : Consent
  delivery : Delivery

/-- Reads the known fields. -/
def content? (fields : List (String × Node)) : Option Content := do
  let text := optional? Node.text? fields
  let integer := optional? Node.integer? fields
  let texts := defaulted? Node.texts? [] fields
  let bag := defaulted? bag? .empty fields
  let scope := defaulted? (fun value => value.text?.map Scope.ofText) .empty fields
  pure {
    id := ← text "jti"
    lineage := ← text "lin"
    clientId := ← text "cid"
    issuer := ← text "iss"
    principal := ← text "usr"
    subject := ← text "sub"
    acr := ← text "acr"
    issuedAt := ← integer "iat"
    expiresAt := ← integer "exp"
    authTime := ← integer "ath"
    redirectUri := ← text "rdu"
    audience := ← texts "aud"
    scope := ← scope "scp"
    nonce := ← text "nnc"
    codeChallenge := ← text "cch"
    consent := { consentable := ← texts "cns", consented := ← texts "csd" }
    delivery := { general := ← bag "dlv", idToken := ← bag "dli", userinfo := ← bag "dlu" } }

/-- A field that claims cannot be without. -/
def required {α : Type} (name : String) : Option α → Except ParseError α
  | some value => .ok value
  | none => .error (.missingField name)

/-- The instant of a count of seconds. -/
def instant (seconds : Int) : Except ParseError Instant :=
  match Instant.ofSeconds? seconds with
  | some instant => .ok instant
  | none => .error (.malformed .timestamp)

/-- The builder of the claims, which has all that a token names and needs neither the clock nor
a fresh identifier. -/
def Content.builder (content : Content) : Except ParseError ClaimsBuilder := do
  let id ← required "jti" content.id
  let lineage ← required "lin" content.lineage
  let clientId ← required "cid" content.clientId
  let issuer ← required "iss" content.issuer
  let principal ← required "usr" content.principal
  let subject ← required "sub" content.subject
  let issuedAt ← required "iat" content.issuedAt >>= instant
  let expiresAt ← required "exp" content.expiresAt >>= instant
  let authTime ← required "ath" content.authTime >>= instant
  pure {
    clientId := ⟨clientId⟩
    issuer
    subject
    id := some ⟨id⟩
    lineage := some ⟨lineage⟩
    principal := some principal
    acr := content.acr
    issuedAt := some { instant := issuedAt }
    expiresAt := some { instant := expiresAt }
    authTime := some { instant := authTime }
    redirectUri := content.redirectUri
    audience := content.audience
    scope := content.scope
    nonce := content.nonce
    consent := content.consent
    delivery := content.delivery }

/-- The claims that the fields spell. -/
def Content.claims (content : Content) : Except ParseError Claims := do
  let builder ← content.builder
  -- Issuance and identifier are given, so the last instant and the empty name are not looked at.
  (builder.build Instant.last ⟨""⟩).mapError ParseError.ofClaims

/-- The type that a document names. -/
def typeOf (fields : List (String × Node)) : Except ParseError TokenType :=
  match optional? Node.text? fields "typ" with
  | none => .error (.malformed .document)
  | some none => .error (.missingField "typ")
  | some (some name) =>
    match TokenType.ofName? name with
    | none => .error (.malformed (.unknownType name))
    | some type => .ok type

/-- Reads claims of an expected type. -/
def decode (bytes : List UInt8) (expected : TokenType) : Except ParseError TokenClaims :=
  match (Node.ofBytes? bytes).bind documentFields? with
  | none => .error (.malformed .document)
  | some fields => do
    let found ← typeOf fields
    if found = expected then
      match content? fields with
      | none => .error (.malformed .document)
      | some content =>
        let claims ← content.claims
        pure (.ofType found claims content.codeChallenge)
    else .error (.typeMismatch expected found)

end OpaqueTokens.Wire
