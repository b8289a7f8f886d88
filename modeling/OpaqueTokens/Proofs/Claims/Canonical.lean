import OpaqueTokens.Proofs.Claims.Decoding
import OpaqueTokens.Proofs.Codec

/-!
# Payloads in other spellings

The reader takes more payloads than are ever written: fields in any order and with blanks around
them, escapes, nulls and empty lists in the place of fields that are left out, fields that it does
not know. All of them must be objects, and whatever is decoded has passed the builder. Attributes
that are decoded are nested no deeper than the reader follows, so decoded claims can be written and
decoded once more, and this time they come back as they are.
-/

namespace OpaqueTokens.Wire

open Json (Node)
open Time (Instant)

/-- What decoding sees to in claims of a type, however they are spelled. The instants are whole
seconds and in range, and the scope is made of words. -/
structure Decoded (type : TokenType) (claims : TokenClaims) : Prop where
  type_eq : claims.type = type
  wellFormed : claims.common.WellFormed
  seconds : ∀ instant ∈ [claims.common.issuedAt, claims.common.expiresAt, claims.common.authTime],
    Instant.ofSeconds? instant.seconds = some instant
  scope : ∀ value ∈ claims.common.scope.values,
    value ≠ "" ∧ ∀ c ∈ value.toList, Text.isBlank c = false
  codeChallenge : claims.codeChallenge ≠ none → type = .authorizationCode

/-- Attributes that are read are nested no deeper than the reader follows. -/
theorem depth_of_bag? {value : Node} {bag : Bag} (h : bag? value = some bag) :
    bag.toJson.depth ≤ attributeDepth := by
  unfold bag? at h
  split at h
  · rename_i fields hfields
    obtain rfl := Option.some.inj h
    exact Nat.le_trans (Bag.depth_ofFields_le fields) (Json.depth_le_of_toJson? value hfields)
  · cases h

/-- Attributes that are read, or left out, are nested no deeper than the reader follows. -/
theorem depth_of_defaulted {fields : List (String × Node)} {name : String} {bag : Bag}
    (h : defaulted? bag? .empty fields name = some bag) : bag.toJson.depth ≤ attributeDepth := by
  unfold defaulted? at h
  split at h
  · obtain rfl := Option.some.inj h
    decide
  · exact depth_of_bag? h
  · cases h

/-- The identifier and the attributes of a document's content are read from their fields. -/
theorem fields_of_content? {fields : List (String × Node)} {content : Content}
    (h : content? fields = some content) :
    optional? Node.text? fields "jti" = some content.id ∧
      defaulted? bag? .empty fields "dlv" = some content.delivery.general ∧
      defaulted? bag? .empty fields "dli" = some content.delivery.idToken ∧
      defaulted? bag? .empty fields "dlu" = some content.delivery.userinfo := by
  obtain ⟨id, hid, h⟩ := Option.bind_eq_some_iff.mp h
  -- The sixteen fields between the identifier and the attributes.
  iterate 16 obtain ⟨_, -, h⟩ := Option.bind_eq_some_iff.mp h
  obtain ⟨general, hgeneral, h⟩ := Option.bind_eq_some_iff.mp h
  obtain ⟨idToken, hidToken, h⟩ := Option.bind_eq_some_iff.mp h
  obtain ⟨userinfo, huserinfo, h⟩ := Option.bind_eq_some_iff.mp h
  obtain rfl := Option.some.inj h
  exact ⟨hid, hgeneral, hidToken, huserinfo⟩

/-- The attributes of a document's content are shallow. -/
theorem shallow_of_content? {fields : List (String × Node)} {content : Content}
    (h : content? fields = some content) : content.delivery.Shallow := by
  obtain ⟨-, hgeneral, hidToken, huserinfo⟩ := fields_of_content? h
  exact ⟨depth_of_defaulted hgeneral, depth_of_defaulted hidToken, depth_of_defaulted huserinfo⟩

/-- Content that spells claims names an identifier, and its attributes are those of the claims. -/
theorem content_of_claims {content : Content} {common : Claims} (h : content.claims = .ok common) :
    content.id ≠ none ∧ common.delivery = content.delivery := by
  obtain ⟨builder, hbuilder, hbuild⟩ := Outcome.bind_eq_ok_iff.mp h
  obtain ⟨-, expiresAt, -, -, rfl⟩ :=
    ClaimsBuilder.build_eq_ok_iff.mp (Outcome.mapError_eq_ok_iff.mp hbuild)
  obtain ⟨id, hid, hbuilder⟩ := Outcome.bind_eq_ok_iff.mp hbuilder
  -- The eight other fields that claims cannot be without.
  iterate 8 obtain ⟨_, -, hbuilder⟩ := Outcome.bind_eq_ok_iff.mp hbuilder
  refine ⟨fun hnone => ?_, ?_⟩
  · simp [hnone, required] at hid
  · exact Except.ok.inj hbuilder ▸ rfl

/-- Only an object names an identifier. -/
theorem isObject_of_content? {node : Node} {fields : List (String × Node)} {content : Content}
    (hfields : documentFields? node = some fields) (hcontent : content? fields = some content)
    (hid : content.id ≠ none) : ∃ fields, node = .object fields := by
  cases node with
  | object fields => exact ⟨fields, rfl⟩
  | null | bool value | number text | string content => cases hfields
  | array items =>
    -- Only a list of one item is looked at as a document, and all that it names is a type.
    match items, hfields with
    | [type], hfields =>
      obtain rfl := Option.some.inj hfields
      obtain ⟨hread, -⟩ := fields_of_content? hcontent
      have hnone : optional? Node.text? [("typ", type)] "jti" = some none := rfl
      exact absurd (Option.some.inj (hread.symm.trans hnone)) hid

/-- Only a code carries a challenge. -/
theorem type_of_codeChallenge {claims : TokenClaims} (h : claims.codeChallenge ≠ none) :
    claims.type = .authorizationCode := by
  cases claims with
  | code code => rfl
  | access access => exact absurd rfl h
  | refresh refresh => exact absurd rfl h

/-- Decoded claims have passed the builder. -/
theorem decoded_of_decode {bytes : List UInt8} {type : TokenType} {claims : TokenClaims}
    (h : decode bytes type = .ok claims) : Decoded type claims := by
  have hwellFormed := (built_of_decode h).wellFormed
  have htype : claims.type = type := by
    obtain ⟨-, -, -, -, -, -, -, rfl⟩ := decode_eq_ok_iff.mp h
    exact TokenClaims.type_ofType _ _ _
  refine ⟨htype, hwellFormed, ?_, claims.common.scope.words,
    fun hchallenge => htype ▸ type_of_codeChallenge hchallenge⟩
  simp only [Instant.ofSeconds?_seconds, List.forall_mem_cons, Option.some.injEq]
  exact ⟨hwellFormed.floor_issuedAt, hwellFormed.floor_expiresAt, hwellFormed.floor_authTime,
    List.forall_mem_nil _⟩

/-- The attributes of decoded claims are shallow. -/
theorem shallow_of_decode {bytes : List UInt8} {type : TokenType} {claims : TokenClaims}
    (h : decode bytes type = .ok claims) : claims.common.delivery.Shallow := by
  obtain ⟨fields, content, common, -, -, hcontent, hcommon, rfl⟩ := decode_eq_ok_iff.mp h
  rw [TokenClaims.common_ofType, (content_of_claims hcommon).2]
  exact shallow_of_content? hcontent

/-- Whatever decodes is an object, and the claims have passed the builder. If the numbers among
their attributes are integers, they decode from their sealed form as they are. -/
theorem decoding_sound_and_stable {bytes : List UInt8} {type : TokenType} {claims : TokenClaims}
    (h : decode bytes type = .ok claims) :
    (∃ fields, Node.ofBytes? bytes = some (.object fields)) ∧ Decoded type claims ∧
      (claims.common.delivery.Integral → decode (encode claims) type = .ok claims) := by
  have hdecoded := decoded_of_decode h
  refine ⟨?_, hdecoded, fun hintegral => ?_⟩
  · obtain ⟨fields, content, common, hfields, -, hcontent, hcommon, -⟩ := decode_eq_ok_iff.mp h
    obtain ⟨node, hnode, hfields⟩ := Option.bind_eq_some_iff.mp hfields
    obtain ⟨objectFields, rfl⟩ :=
      isObject_of_content? hfields hcontent (content_of_claims hcommon).1
    exact ⟨objectFields, hnode⟩
  · have hreadable : claims.common.Readable :=
      ⟨hdecoded.wellFormed, rereadDelivery?_of_shallow hintegral (shallow_of_decode h)⟩
    rw [← hdecoded.type_eq]
    exact decode_encode_of_readable hreadable

/-- The claims of the sample code as those of an access token, in another spelling: the fields are
in another order with blanks between them, names and texts hold escapes, a field is null and one is
an empty list, one is unknown and one is a challenge, the scope repeats a value, and of two
attributes with one name the last one counts. -/
def otherSpelling : String :=
  "\x7b \"sub\": \"a \\u0022quoted\\u0022 subject\", \"\\u0074yp\": \"access_token\",\n" ++
  "  \"unknown\": [1.5, \x7b\x7d], \"cch\": \"plainverifier\", \"acr\": null, \"csd\": [],\n" ++
  "  \"jti\": \"code-1\", \"lin\": \"lineage-1\", \"cid\": \"client\", \"usr\": \"user\",\n" ++
  "  \"iss\": \"https:\\/\\/issuer.example\", \"ath\": -1, \"exp\": 60, \"iat\": 0,\n" ++
  "  \"rdu\": \"app://callback\", \"aud\": [\"api\"], \"scp\": \" profile  openid profile\",\n" ++
  "  \"cns\": [\"email\"], \"dlv\": \x7b\"level\": 7, \"level\": [-3]\x7d \x7d"

/-- The other spelling decodes as an access token, and the claims decode from their sealed form. -/
theorem decoding_sound_and_stable_sample :
    decode (Text.utf8 otherSpelling) .accessToken = .ok (.access ⟨Codec.sampleCode.common⟩) ∧
      encode (.access ⟨Codec.sampleCode.common⟩) ≠ Text.utf8 otherSpelling ∧
      (∃ fields, Node.ofBytes? (Text.utf8 otherSpelling) = some (.object fields)) ∧
      Decoded .accessToken (.access ⟨Codec.sampleCode.common⟩) ∧
      decode (encode (.access ⟨Codec.sampleCode.common⟩)) .accessToken =
        .ok (.access ⟨Codec.sampleCode.common⟩) := by
  have hdecode : decode (Text.utf8 otherSpelling) .accessToken =
      .ok (.access ⟨Codec.sampleCode.common⟩) := by decide +kernel
  obtain ⟨hobject, hdecoded, hstable⟩ := decoding_sound_and_stable hdecode
  exact ⟨hdecode, by decide +kernel, hobject, hdecoded, hstable Codec.sampleCode_integral⟩

end OpaqueTokens.Wire
