import OpaqueTokens.Proofs.Claims.Nesting
import OpaqueTokens.Proofs.Grant.Acceptance
import OpaqueTokens.Proofs.Grant.Sets
import OpaqueTokens.Proofs.Reading

/-!
# Claims that are nested too deep

Writing claims down never fails, however deep their attributes are nested, and reading them does. So
claims beyond the limit of the reader are sealed like all others, and their token is of no use: at
every time it is parsed as nothing, and no endpoint accepts it in any state.
-/

namespace OpaqueTokens

open Time (Instant Reading)

namespace Codec

variable {codec : Codec} {nonce : Nonce} {claims : TokenClaims} {token : String}

/-- Nothing but the sealer refuses claims. -/
theorem issue_eq_error_iff {error : CodecError} :
    codec.issue nonce claims = .error error ↔
      ∃ refusal, codec.sealer.sealPayload (Wire.encode claims) claims.common.expiresAt.seconds
        nonce = .error refusal ∧ .sealing refusal = error := by
  rw [issue]
  cases codec.sealer.sealPayload (Wire.encode claims) claims.common.expiresAt.seconds nonce <;>
    simp

/-- The token of claims that are nested too deep is malformed until they expire. -/
theorem parse_of_issue_of_le_depth (hsealer : codec.sealer.Faithful)
    (hbuilt : claims.common.Built) (hdepth : 128 ≤ (Wire.document claims).depth)
    (h : codec.issue nonce claims = .ok token) (clock : Instant) :
    codec.parse clock token claims.type =
      if claims.common.expiresAt ≤ clock then .error (.sealing .expired)
      else .error (.parse (.malformed .document)) := by
  rw [parse_of_issue_of_faithful hsealer h clock claims.type,
    Wire.decode_encode_of_le_depth hdepth, Outcome.mapError_error]
  simp only [Instant.seconds_le_iff hbuilt.wellFormed.floor_expiresAt]

/-- The token of claims that are nested too deep reads as nothing. -/
theorem not_reads_of_le_depth (hsealer : codec.sealer.Faithful) (hbuilt : claims.common.Built)
    (hdepth : 128 ≤ (Wire.document claims).depth) (h : codec.issue nonce claims = .ok token)
    (read : TokenClaims) : ¬codec.Reads token read := by
  intro hread
  have htype := (hread.of_issue_of_faithful hsealer h).1
  obtain ⟨clock, type, hparse⟩ := hread
  obtain rfl : type = claims.type := (type_of_parse hparse).symm.trans htype
  rw [parse_of_issue_of_le_depth hsealer hbuilt hdepth h clock] at hparse
  split at hparse <;> cases hparse

end Codec

namespace Service

/-- What is sealed does not depend on how deep claims are nested: only the sealer refuses claims. A
token whose claims are within the limit of the reader carries them. The token of deeper claims is
malformed as long as it has not expired; it is never exchanged, never refreshed and never validated,
whatever the caches hold and whatever time is named. -/
theorem deep_claims_issued {config : Config} {codec : Codec} (hsealer : codec.sealer.Faithful)
    {claims : TokenClaims} (hbuilt : claims.common.Built) (nonce : Nonce) :
    (∀ error, codec.issue nonce claims = .error error ↔
      ∃ refusal, codec.sealer.sealPayload (Wire.encode claims) claims.common.expiresAt.seconds
        nonce = .error refusal ∧ .sealing refusal = error) ∧
    ∀ token, codec.issue nonce claims = .ok token →
      ((Wire.document claims).depth < 128 → claims.common.delivery.Integral →
        codec.Carries token claims) ∧
      (128 ≤ (Wire.document claims).depth →
        (∀ clock, codec.parse clock token claims.type =
          if claims.common.expiresAt ≤ clock then .error (.sealing .expired)
          else .error (.parse (.malformed .document))) ∧
        ∀ (moments : Moments) (caches : Caches),
          (∀ (now : Reading) (draw : Draw) (request : CodeExchange) (set : TokenSet),
            request.code = token →
              ((inMemory config codec).exchange moments now draw request caches).2 ≠ .ok set) ∧
          (∀ (now : Reading) (draw : Draw) (request : RefreshExchange) (set : TokenSet),
            request.refreshToken = token →
              ((inMemory config codec).refresh moments now draw request caches).2 ≠ .ok set) ∧
          ∀ (now : Instant) (access : AccessClaims),
            (inMemory config codec).validateAccess moments now token caches ≠ .ok access) := by
  refine ⟨fun error => Codec.issue_eq_error_iff, fun token hissue => ⟨?_, fun hdepth => ?_⟩⟩
  · intro hdepth hintegral
    exact Codec.carries_of_issue hsealer (Claims.readable_of_depth hbuilt hintegral hdepth) hissue
  · have hnothing := Codec.not_reads_of_le_depth hsealer hbuilt hdepth hissue
    refine ⟨Codec.parse_of_issue_of_le_depth hsealer hbuilt hdepth hissue,
      fun moments caches => ⟨?_, ?_, ?_⟩⟩
    · rintro now draw request set rfl hset
      obtain ⟨code, hparse, -⟩ := mints_of_exchange hset
      exact hnothing _ ⟨moments.unsealing, _, hparse⟩
    · rintro now draw request set rfl hset
      obtain ⟨refresh, hparse, -⟩ := renews_of_refresh hset
      exact hnothing _ ⟨moments.unsealing, _, hparse⟩
    · intro now access haccess
      exact hnothing _ ⟨moments.unsealing, _, AccessValidator.claims_of_validate haccess⟩

end Service

/-- Lists in lists around nothing. -/
def Json.nested : Nat → Json
  | 0 => .null
  | n + 1 => .array [nested n]

/-- The sample code with attributes that are nested one level too deep. -/
def deepCode : CodeClaims :=
  { Codec.sampleCode with common := { Codec.sampleCode.common with
      delivery := { general := Bag.ofFields [("deep", Json.nested 126)] } } }

theorem deepCode_built : deepCode.common.Built :=
  Claims.built_iff_wellFormed.mpr (by decide)

theorem deepCode_depth : (Wire.document (.code deepCode)).depth = 128 := by
  decide +kernel

/-- The sample code is issued with attributes that are nested too deep. -/
theorem exists_issue_deep :
    ∃ token, Codec.sampleCodec.issue Codec.sampleNonce (.code deepCode) = .ok token :=
  exists_issue_of_fitsCipher Codec.sampleNonce (by decide +kernel)

/-- The code that is nested too deep is issued, and no exchange accepts it at any time. -/
theorem Service.deep_claims_issued_sample :
    ∃ token, Codec.sampleCodec.issue Codec.sampleNonce (.code deepCode) = .ok token ∧
      ∀ moments caches now draw set,
        (sampleService.exchange moments now draw (sampleRequest token) caches).2 ≠ .ok set := by
  obtain ⟨token, hissue⟩ := exists_issue_deep
  obtain ⟨-, htokens⟩ := @Service.deep_claims_issued sampleConfig Codec.sampleCodec
    Codec.sampleCodec_faithful (.code deepCode) deepCode_built Codec.sampleNonce
  obtain ⟨-, hdeep⟩ := htokens token hissue
  obtain ⟨-, hrefused⟩ := hdeep (Nat.le_of_eq deepCode_depth.symm)
  exact ⟨token, hissue, fun moments caches now draw set =>
    (hrefused moments caches).1 now draw (sampleRequest token) set rfl⟩

/-- The code that is nested too deep was built, is issued, and cannot be parsed before it
expires. -/
theorem Codec.deep_code_malformed :
    deepCode.common.Built ∧ ∃ token,
      Codec.sampleCodec.issue Codec.sampleNonce (.code deepCode) = .ok token ∧
      sampleClock < deepCode.common.expiresAt ∧
      Codec.sampleCodec.parse sampleClock token .authorizationCode =
        .error (.parse (.malformed .document)) := by
  obtain ⟨token, hissue⟩ := exists_issue_deep
  have hparse := @Codec.parse_of_issue_of_le_depth Codec.sampleCodec Codec.sampleNonce
    (.code deepCode) token Codec.sampleCodec_faithful deepCode_built
    (Nat.le_of_eq deepCode_depth.symm) hissue sampleClock
  rw [if_neg (by decide)] at hparse
  exact ⟨deepCode_built, token, hissue, by decide, hparse⟩

end OpaqueTokens
