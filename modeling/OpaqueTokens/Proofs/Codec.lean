import OpaqueTokens.Codec
import OpaqueTokens.Proofs.Claims.Rereading
import OpaqueTokens.Proofs.Seal.Sealer

/-!
# Tokens parsed back

A token that a codec issued is parsed as its own type until it expires, and the claims come back
field for field. This needs attributes that the sealed form can carry: integers for numbers, and
a document that is not nested too deep.
-/

namespace OpaqueTokens.Codec

open Crypto (Aead Gcm.aead Gcm.maxTextLength)
open Time (Instant)

/-- The codec of a ring. -/
def ofRing (cipher : Aead) (ring : Keyring) : Codec :=
  ⟨ring.sealer cipher⟩

/-- A token that a codec issued. -/
def Issued (codec : Codec) (token : String) : Prop :=
  ∃ nonce claims, codec.issue nonce claims = .ok token

/-- A token that was issued with a key of a ring: it comes from a ring that could be made, whose own
key this ring still has. -/
def IssuedUnder (ring : Keyring) (token : String) : Prop :=
  ∃ issuer : Keyring, issuer.Reachable ∧
    ring.find? issuer.currentId = issuer.find? issuer.currentId ∧
    (ofRing Gcm.aead issuer).Issued token

/-- What a ring issues is issued with its own key. -/
theorem Issued.under {ring : Keyring} (hring : ring.Reachable) {token : String}
    (h : (ofRing Gcm.aead ring).Issued token) : IssuedUnder ring token :=
  ⟨ring, hring, rfl, h⟩

/-- A token whose content is unsealed until the expiry of claims is refused as expired once the
whole second of the expiry is reached, and is decoded until then. -/
theorem parse_of_unseals {codec : Codec} {claims : TokenClaims} {token : String}
    (h : ∀ clock : Instant, codec.sealer.unsealPayload clock token =
      if claims.common.expiresAt.seconds ≤ clock.seconds then .error .expired
      else .ok (Wire.encode claims)) (clock : Instant) (expected : TokenType) :
    codec.parse clock token expected =
      if claims.common.expiresAt.seconds ≤ clock.seconds then .error (.sealing .expired)
      else (Wire.decode (Wire.encode claims) expected).mapError .parse := by
  rw [parse, h clock]
  by_cases hexpired : claims.common.expiresAt.seconds ≤ clock.seconds <;> simp [hexpired]

/-- With a faithful sealer a token that was issued is refused as expired once the whole second of
its expiry is reached, and is decoded until then. -/
theorem parse_of_issue_of_faithful {codec : Codec} (hsealer : codec.sealer.Faithful)
    {nonce : Nonce} {claims : TokenClaims} {token : String}
    (h : codec.issue nonce claims = .ok token) (clock : Instant) (expected : TokenType) :
    codec.parse clock token expected =
      if claims.common.expiresAt.seconds ≤ clock.seconds then .error (.sealing .expired)
      else (Wire.decode (Wire.encode claims) expected).mapError .parse :=
  parse_of_unseals (hsealer _ _ _ _ claims.common.expiresAt.seconds_bounds
    (Outcome.mapError_eq_ok_iff.mp h)) clock expected

/-- The sealer of a ring is faithful, so the same is true of a ring. -/
theorem parse_of_issue {cipher : Aead} {limit : Nat} (hcipher : cipher.Seals limit)
    {ring : Keyring} (hring : ring.Sound) {nonce : Nonce} {claims : TokenClaims} {token : String}
    (h : (ofRing cipher ring).issue nonce claims = .ok token) (clock : Instant)
    (expected : TokenType) :
    (ofRing cipher ring).parse clock token expected =
      if claims.common.expiresAt.seconds ≤ clock.seconds then .error (.sealing .expired)
      else (Wire.decode (Wire.encode claims) expected).mapError .parse :=
  parse_of_issue_of_faithful (hring.faithful hcipher) h clock expected

/-- The same is true of a token that was issued with a key of the ring. -/
theorem parse_of_issuedUnder {ring : Keyring} (hring : ring.Reachable) {token : String}
    (h : IssuedUnder ring token) :
    ∃ claims : TokenClaims, ∀ clock expected, (ofRing Gcm.aead ring).parse clock token expected =
      if claims.common.expiresAt.seconds ≤ clock.seconds then .error (.sealing .expired)
      else (Wire.decode (Wire.encode claims) expected).mapError .parse := by
  obtain ⟨issuer, -, hsame, nonce, claims, hissue⟩ := h
  have hseal : issuer.sealPayload Gcm.aead (Wire.encode claims) claims.common.expiresAt.seconds
      nonce = .ok token := Outcome.mapError_eq_ok_iff.mp hissue
  have hsealed := Keyring.sealed_of_sealPayload claims.common.expiresAt.seconds_bounds hseal hsame
  refine ⟨claims, fun clock expected => parse_of_unseals (fun clock => ?_) clock expected⟩
  exact hsealed.unseals Crypto.Gcm.aead_seals hring.sound clock

/-- A token carries claims: it is parsed as them until they expire, and refused as expired from then
on. -/
def Carries (codec : Codec) (token : String) (claims : TokenClaims) : Prop :=
  ∀ clock, codec.parse clock token claims.type =
    if claims.common.expiresAt ≤ clock then .error (.sealing .expired) else .ok claims

/-- With a faithful sealer the token of readable claims carries them. -/
theorem carries_of_issue {codec : Codec} (hsealer : codec.sealer.Faithful) {nonce : Nonce}
    {claims : TokenClaims} {token : String} (hclaims : claims.common.Readable)
    (h : codec.issue nonce claims = .ok token) : codec.Carries token claims := by
  intro clock
  rw [parse_of_issue_of_faithful hsealer h clock claims.type,
    Wire.decode_encode_of_readable hclaims, Outcome.mapError_ok]
  simp only [Instant.seconds_le_iff hclaims.wellFormed.floor_expiresAt]

/-- A token that carries claims is parsed as them as long as they have not expired. -/
theorem Carries.parse {codec : Codec} {token : String} {claims : TokenClaims}
    (h : codec.Carries token claims) {clock : Instant} (hclock : clock < claims.common.expiresAt) :
    codec.parse clock token claims.type = .ok claims := by
  have hunexpired : ¬claims.common.expiresAt ≤ clock := Int.not_le.mpr hclock
  rw [h clock, if_neg hunexpired]

/-- Claims are sealed whenever the cipher can take their sealed form. -/
theorem exists_issue {cipher : Aead} {limit : Nat} (hcipher : cipher.Seals limit)
    {ring : Keyring} (hring : ring.Sound) (nonce : Nonce) (claims : TokenClaims)
    (hlength : (Envelope.content claims.common.expiresAt.seconds (Wire.encode claims)).length ≤
      limit) :
    ∃ token, (ofRing cipher ring).issue nonce claims = .ok token := by
  obtain ⟨token, hseal⟩ := Keyring.exists_sealPayload hcipher hring hlength nonce
  exact ⟨token, Outcome.mapError_eq_ok_iff.mpr hseal⟩

/-- Until it expires, the token of claims that were built, with attributes that the sealed form can
carry, is parsed as exactly these claims. -/
theorem parse_of_issue_of_wellFormed {cipher : Aead} {limit : Nat} (hcipher : cipher.Seals limit)
    {ring : Keyring} (hring : ring.Sound) {nonce : Nonce} {claims : TokenClaims} {token : String}
    (hissue : (ofRing cipher ring).issue nonce claims = .ok token)
    (hclaims : claims.common.WellFormed) (hintegral : claims.common.delivery.Integral)
    (hdepth : (Wire.document claims).depth < 128) {clock : Instant}
    (hclock : clock.seconds < claims.common.expiresAt.seconds) :
    (ofRing cipher ring).parse clock token claims.type = .ok claims := by
  rw [parse_of_issue hcipher hring hissue clock claims.type, if_neg (Int.not_le.mpr hclock),
    Wire.decode_encode_of_wellFormed hclaims hintegral hdepth, Outcome.mapError_ok]

/-- Claims that were built, with attributes that the sealed form can carry, are sealed under any
nonce, and until they expire the token is parsed as exactly these claims. -/
theorem exists_token_parsed_back {ring : Keyring} (hring : ring.Reachable) (nonce : Nonce)
    {claims : TokenClaims} (hbuilt : claims.common.Built)
    (hintegral : claims.common.delivery.Integral)
    (hdepth : (Wire.document claims).depth < 128)
    (hlength : (Envelope.content claims.common.expiresAt.seconds (Wire.encode claims)).length ≤
      Gcm.maxTextLength) :
    ∃ token, (ofRing Gcm.aead ring).issue nonce claims = .ok token ∧
      ∀ clock : Instant, clock.seconds < claims.common.expiresAt.seconds →
        (ofRing Gcm.aead ring).parse clock token claims.type = .ok claims := by
  obtain ⟨token, hissue⟩ := exists_issue Crypto.Gcm.aead_seals hring.sound nonce claims hlength
  exact ⟨token, hissue, fun clock hclock => parse_of_issue_of_wellFormed Crypto.Gcm.aead_seals
    hring.sound hissue hbuilt.wellFormed hintegral hdepth hclock⟩

/-- A key of thirty-two equal bytes. -/
def sampleKey : SealerKey :=
  ⟨List.replicate 32 7, by decide⟩

/-- A ring of one key. -/
def sampleRing : Keyring :=
  ⟨"k", [("k", sampleKey)]⟩

theorem sampleRing_reachable : sampleRing.Reachable :=
  .new (rfl : Keyring.new "k" sampleKey = .ok sampleRing)

/-- The codec of the sample ring. -/
def sampleCodec : Codec :=
  ofRing Gcm.aead sampleRing

theorem sampleCodec_faithful : sampleCodec.sealer.Faithful :=
  sampleRing_reachable.sound.faithful Crypto.Gcm.aead_seals

/-- The claims of a code that binds an address, releases an attribute and carries a challenge. -/
def sampleCode : CodeClaims where
  common := {
    id := ⟨"code-1"⟩
    lineage := ⟨"lineage-1"⟩
    clientId := ⟨"client"⟩
    issuer := "https://issuer.example"
    principal := "user"
    subject := "a \"quoted\" subject"
    acr := none
    issuedAt := ⟨0, by decide, by decide⟩
    expiresAt := ⟨60000000000, by decide, by decide⟩
    authTime := ⟨-1000000000, by decide, by decide⟩
    redirectUri := some "app://callback"
    audience := ["api"]
    scope := Scope.ofText "openid profile"
    nonce := none
    consent := { consentable := ["email"] }
    delivery := { general := Bag.ofFields [("level", .array [.number (.integer (-3))])] } }
  codeChallenge := some "plainverifier"

theorem sampleCode_built : sampleCode.common.Built :=
  Claims.built_iff_wellFormed.mpr (by decide)

theorem sampleCode_integral : sampleCode.common.delivery.Integral where
  general := ⟨⟨⟨by decide, by decide⟩, trivial⟩, trivial⟩
  idToken := trivial
  userinfo := trivial

/-- The nonce of zeros. -/
def sampleNonce : Nonce :=
  ⟨List.replicate 12 0, by decide⟩

/-- The sealed form of the sample code is one that the cipher takes. -/
theorem sampleCode_fits :
    (Envelope.content sampleCode.common.expiresAt.seconds (Wire.encode (.code sampleCode))).length ≤
      Gcm.maxTextLength := by
  decide +kernel

/-- The sample code is issued. -/
theorem exists_issue_sample :
    ∃ token, sampleCodec.issue sampleNonce (.code sampleCode) = .ok token :=
  exists_issue Crypto.Gcm.aead_seals sampleRing_reachable.sound sampleNonce _ sampleCode_fits

/-- The token of the sample code is parsed before its expiry. -/
theorem parse_sample {token : String}
    (h : sampleCodec.issue sampleNonce (.code sampleCode) = .ok token) {clock : Instant}
    (hclock : clock.seconds < sampleCode.common.expiresAt.seconds) :
    sampleCodec.parse clock token .authorizationCode = .ok (.code sampleCode) :=
  parse_of_issue_of_wellFormed Crypto.Gcm.aead_seals sampleRing_reachable.sound h
    sampleCode_built.wellFormed sampleCode_integral (by decide +kernel) hclock

theorem sampleCode_parsed_back :
    ∃ token, sampleCodec.issue sampleNonce (.code sampleCode) = .ok token ∧
      ∀ clock : Instant, clock.seconds < sampleCode.common.expiresAt.seconds →
        sampleCodec.parse clock token .authorizationCode = .ok (.code sampleCode) :=
  exists_token_parsed_back sampleRing_reachable sampleNonce
    (sampleCode_built : (TokenClaims.code sampleCode).common.Built) sampleCode_integral
    (by decide +kernel) sampleCode_fits

end OpaqueTokens.Codec
