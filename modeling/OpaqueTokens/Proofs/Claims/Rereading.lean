import OpaqueTokens.Proofs.Claims.Building
import OpaqueTokens.Proofs.Claims.Slots
import OpaqueTokens.Proofs.Outcome

/-!
# Claims read back

What a token says is found again in its sealed form. Instants come back cut to whole seconds, and
attributes as the reader finds them; everything else comes back unchanged. Claims that were built
hold whole seconds and pass the checks of the builder once more, so with attributes that can be
read they come back as they were.
-/

namespace OpaqueTokens

open Json (Node)
open Time (Instant)

/-- The property of attributes whose numbers all are integers. -/
structure Delivery.Integral (delivery : Delivery) : Prop where
  general : Json.FieldsIntegral delivery.general.fields
  idToken : Json.FieldsIntegral delivery.idToken.fields
  userinfo : Json.FieldsIntegral delivery.userinfo.fields

/-- Attributes that are nested no deeper than the reader follows. -/
structure Delivery.Shallow (delivery : Delivery) : Prop where
  general : delivery.general.toJson.depth ≤ Wire.attributeDepth
  idToken : delivery.idToken.toJson.depth ≤ Wire.attributeDepth
  userinfo : delivery.userinfo.toJson.depth ≤ Wire.attributeDepth

namespace Wire

/-- The attributes of claims as they are read back. -/
def rereadDelivery? (delivery : Delivery) : Option Delivery := do
  let general ← rereadBag? delivery.general
  let idToken ← rereadBag? delivery.idToken
  let userinfo ← rereadBag? delivery.userinfo
  pure { general, idToken, userinfo }

/-- The fields of claims, with attributes as they were read. -/
def Content.of (claims : TokenClaims) (delivery : Delivery) : Content where
  id := some claims.common.id.text
  lineage := some claims.common.lineage.text
  clientId := some claims.common.clientId.text
  issuer := some claims.common.issuer
  principal := some claims.common.principal
  subject := some claims.common.subject
  acr := claims.common.acr
  issuedAt := some claims.common.issuedAt.seconds
  expiresAt := some claims.common.expiresAt.seconds
  authTime := some claims.common.authTime.seconds
  redirectUri := claims.common.redirectUri
  audience := claims.common.audience
  scope := claims.common.scope
  nonce := claims.common.nonce
  codeChallenge := claims.codeChallenge
  consent := claims.common.consent
  delivery

section Fields

variable (claims : TokenClaims) (name : String)

/-- A text of the claims is read back. -/
theorem text_of_mem_slots (value : Option String)
    (h : (name, value.map Json.string) ∈ slots claims) :
    optional? Node.text? (named (fields claims)) name = some value :=
  (holds_of_mem_slots claims h).text

/-- An instant of the claims is read back as its count of seconds. -/
theorem seconds_of_mem_slots (i : Instant) (h : (name, some (Json.int i.seconds)) ∈ slots claims) :
    optional? Node.integer? (named (fields claims)) name = some (some i.seconds) :=
  (holds_of_mem_slots claims h).integer i.seconds_bounds

/-- Texts of the claims are read back. -/
theorem texts_of_mem_slots (value : List String) (h : (name, textsSlot value) ∈ slots claims) :
    defaulted? Node.texts? [] (named (fields claims)) name = some value :=
  (holds_of_mem_slots claims h).texts

/-- The scope of the claims is read back. -/
theorem scope_of_mem_slots (value : Scope) (h : (name, scopeSlot value) ∈ slots claims) :
    defaulted? (fun value => value.text?.map Scope.ofText) .empty (named (fields claims)) name =
      some value :=
  (holds_of_mem_slots claims h).scope

/-- Attributes of the claims are read back as the reader finds them. -/
theorem bag_of_mem_slots (value : Bag) (h : (name, bagSlot value) ∈ slots claims) :
    defaulted? bag? .empty (named (fields claims)) name = rereadBag? value :=
  (holds_of_mem_slots claims h).bag

end Fields

/-- The fields of the sealed form are read as the fields of the claims. -/
theorem content?_fields (claims : TokenClaims) :
    content? (named (fields claims)) =
      (rereadDelivery? claims.common.delivery).map (Content.of claims) := by
  rw [content?]
  simp only [text_of_mem_slots claims "jti" (some claims.common.id.text) (by simp [slots]),
    text_of_mem_slots claims "lin" (some claims.common.lineage.text) (by simp [slots]),
    text_of_mem_slots claims "cid" (some claims.common.clientId.text) (by simp [slots]),
    text_of_mem_slots claims "iss" (some claims.common.issuer) (by simp [slots]),
    text_of_mem_slots claims "usr" (some claims.common.principal) (by simp [slots]),
    text_of_mem_slots claims "sub" (some claims.common.subject) (by simp [slots]),
    text_of_mem_slots claims "acr" claims.common.acr (by simp [slots]),
    seconds_of_mem_slots claims "iat" claims.common.issuedAt (by simp [slots]),
    seconds_of_mem_slots claims "exp" claims.common.expiresAt (by simp [slots]),
    seconds_of_mem_slots claims "ath" claims.common.authTime (by simp [slots]),
    text_of_mem_slots claims "rdu" claims.common.redirectUri (by simp [slots]),
    texts_of_mem_slots claims "aud" claims.common.audience (by simp [slots]),
    scope_of_mem_slots claims "scp" claims.common.scope (by simp [slots]),
    text_of_mem_slots claims "nnc" claims.common.nonce (by simp [slots]),
    text_of_mem_slots claims "cch" claims.codeChallenge (by simp [slots]),
    texts_of_mem_slots claims "cns" claims.common.consent.consentable (by simp [slots]),
    texts_of_mem_slots claims "csd" claims.common.consent.consented (by simp [slots]),
    bag_of_mem_slots claims "dlv" claims.common.delivery.general (by simp [slots]),
    bag_of_mem_slots claims "dli" claims.common.delivery.idToken (by simp [slots]),
    bag_of_mem_slots claims "dlu" claims.common.delivery.userinfo (by simp [slots])]
  rw [rereadDelivery?]
  cases rereadBag? claims.common.delivery.general <;>
    cases rereadBag? claims.common.delivery.idToken <;>
    cases rereadBag? claims.common.delivery.userinfo <;> rfl

/-- The type of the sealed form is the type of the claims. -/
theorem typeOf_fields (claims : TokenClaims) :
    typeOf (named (fields claims)) = .ok claims.type := by
  have htype : optional? Node.text? (named (fields claims)) "typ" =
      some (some claims.type.name) :=
    text_of_mem_slots claims "typ" (some claims.type.name) (by simp [slots])
  simp [typeOf, htype, TokenType.ofName?_name]

/-- The claims that the builder is asked for when claims are read back. -/
def reread (claims : Claims) (delivery : Delivery) : Claims :=
  { claims with
    issuedAt := claims.issuedAt.floor
    expiresAt := claims.expiresAt.floor
    authTime := claims.authTime.floor
    delivery }

/-- The fields of claims fill the builder of the claims. -/
theorem builder_of (claims : TokenClaims) (delivery : Delivery) :
    (Content.of claims delivery).builder = .ok (reread claims.common delivery).rebuilder := by
  simp only [Content.builder, Content.of, required, Outcome.ok_bind, instant,
    Instant.ofSeconds?_seconds]
  rfl

/-- The sealed form is read as the type that the claims are of, and refused as any other. -/
theorem decode_encode_of_ne {claims : TokenClaims} {expected : TokenType}
    (h : claims.type ≠ expected) :
    decode (encode claims) expected = .error (.typeMismatch expected claims.type) := by
  rw [decode, encode, Node.ofBytes?_write, document, Option.bind_some, documentFields?_toNode]
  simp [typeOf_fields, h]

/-- What the sealed form is read as: the claims that the builder makes of the fields. -/
theorem decode_encode (claims : TokenClaims) :
    decode (encode claims) claims.type =
      match rereadDelivery? claims.common.delivery with
      | none => .error (.malformed .document)
      | some delivery =>
        (((reread claims.common delivery).rebuilder.build Instant.last ⟨""⟩).mapError
          ParseError.ofClaims).map (TokenClaims.ofType claims.type · claims.codeChallenge) := by
  rw [decode, encode, Node.ofBytes?_write, document, Option.bind_some, documentFields?_toNode]
  simp only [typeOf_fields, content?_fields]
  cases rereadDelivery? claims.common.delivery with
  | none => simp
  | some delivery =>
    simp only [Option.map_some, Content.claims, builder_of, Outcome.ok_bind, if_true]
    cases (reread claims.common delivery).rebuilder.build Instant.last ⟨""⟩ <;> rfl

/-- The claims of a document that was read successfully are the ones that were written, but for
their attributes and for what instants lose when they are cut to whole seconds. -/
theorem of_decode_encode {claims read : TokenClaims} {expected : TokenType}
    (h : decode (encode claims) expected = .ok read) :
    claims.type = expected ∧ read.type = expected ∧
      ∃ delivery, read.common = reread claims.common delivery := by
  have htype : claims.type = expected := Decidable.byContradiction fun hne => by
    simp [decode_encode_of_ne hne] at h
  subst htype
  rw [decode_encode] at h
  cases hdelivery : rereadDelivery? claims.common.delivery with
  | none => simp [hdelivery] at h
  | some delivery =>
    rw [hdelivery] at h
    obtain ⟨built, hbuilt, rfl⟩ := Outcome.map_eq_ok_iff.mp h
    obtain ⟨-, expiresAt, hexpiry, -, rfl⟩ :=
      ClaimsBuilder.build_eq_ok_iff.mp (Outcome.mapError_eq_ok_iff.mp hbuilt)
    simp only [ClaimsBuilder.expiry?, Claims.rebuilder, reread, Time.Reading.universal,
      Instant.floor_floor, Option.some.injEq] at hexpiry
    subst hexpiry
    refine ⟨rfl, by simp, delivery, ?_⟩
    ext <;> simp [ClaimsBuilder.claimsUntil, ClaimsBuilder.issuance, Claims.rebuilder, reread,
      Time.Reading.universal]

/-- Attributes of a document that is not nested too deep can be read. -/
theorem depth_le_attributeDepth {claims : TokenClaims} (hdepth : (document claims).depth < 128)
    (name : String) {bag : Bag} (h : (name, bagSlot bag) ∈ slots claims) :
    bag.toJson.depth ≤ attributeDepth := by
  by_cases hempty : bag.isEmpty
  · have hbag : bag = .empty := Bag.ext (List.isEmpty_iff.mp hempty)
    subst hbag
    decide
  · have hfield : (name, bag.toJson) ∈ fields claims := by
      rw [fields_eq_present, present, List.mem_filterMap]
      exact ⟨_, h, by simp [bagSlot, hempty]⟩
    have hle := Json.depth_le_fieldsDepth hfield
    rw [document, Json.depth] at hdepth
    rw [attributeDepth]
    omega

/-- The attributes of a document that is not nested too deep are shallow. -/
theorem shallow_of_depth {claims : TokenClaims} (hdepth : (document claims).depth < 128) :
    claims.common.delivery.Shallow :=
  ⟨depth_le_attributeDepth hdepth "dlv" (by simp [slots]),
    depth_le_attributeDepth hdepth "dli" (by simp [slots]),
    depth_le_attributeDepth hdepth "dlu" (by simp [slots])⟩

/-- Attributes with integers for numbers are read back if they are shallow. -/
theorem rereadDelivery?_of_shallow {delivery : Delivery} (hintegral : delivery.Integral)
    (h : delivery.Shallow) : rereadDelivery? delivery = some delivery := by
  rw [rereadDelivery?, rereadBag?_of_integral hintegral.general h.general,
    rereadBag?_of_integral hintegral.idToken h.idToken,
    rereadBag?_of_integral hintegral.userinfo h.userinfo]
  rfl

end Wire

/-- Claims that come back from their sealed form as they are. -/
structure Claims.Readable (claims : Claims) : Prop where
  wellFormed : claims.WellFormed
  delivery : Wire.rereadDelivery? claims.delivery = some claims.delivery

namespace Wire

/-- Readable claims are decoded as they were encoded. -/
theorem decode_encode_of_readable {claims : TokenClaims} (h : claims.common.Readable) :
    decode (encode claims) claims.type = .ok claims := by
  have hreread : reread claims.common claims.common.delivery = claims.common :=
    Claims.ext rfl rfl rfl rfl rfl rfl rfl h.wellFormed.floor_issuedAt
      h.wellFormed.floor_expiresAt h.wellFormed.floor_authTime rfl rfl rfl rfl rfl rfl
  rw [decode_encode, h.delivery]
  simp only [hreread, h.wellFormed.build_rebuilder, Outcome.mapError_ok, Outcome.map_ok]
  cases claims <;> rfl

/-- Built claims are read back as they were. -/
theorem decode_encode_of_wellFormed {claims : TokenClaims} (h : claims.common.WellFormed)
    (hintegral : claims.common.delivery.Integral) (hdepth : (document claims).depth < 128) :
    decode (encode claims) claims.type = .ok claims :=
  decode_encode_of_readable ⟨h, rereadDelivery?_of_shallow hintegral (shallow_of_depth hdepth)⟩

end Wire

end OpaqueTokens
