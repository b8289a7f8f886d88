import OpaqueTokens.Codec
import OpaqueTokens.Proofs.Claims.Building
import OpaqueTokens.Proofs.Outcome

/-!
# What decoding establishes

A payload decodes as a type when it is a document that names this type, when its known fields are
each of their kind, and when the builder accepts what they say. So decoded claims are built
claims, with all that building sees to.
-/

namespace OpaqueTokens

open Json (Node)
open Time (Instant)

namespace Wire

/-- The steps of decoding all succeed when it does. -/
theorem decode_eq_ok_iff {bytes : List UInt8} {expected : TokenType} {claims : TokenClaims} :
    decode bytes expected = .ok claims ↔
      ∃ fields content common, (Node.ofBytes? bytes).bind documentFields? = some fields ∧
        typeOf fields = .ok expected ∧ content? fields = some content ∧
        content.claims = .ok common ∧
        TokenClaims.ofType expected common content.codeChallenge = claims := by
  rw [decode]
  cases hfields : (Node.ofBytes? bytes).bind documentFields? with
  | none => simp
  | some fields =>
    cases htype : typeOf fields with
    | error error => simp [htype]
    | ok found =>
      by_cases hfound : found = expected
      · subst hfound
        cases hcontent : content? fields with
        | none => simp [htype, hcontent]
        | some content =>
          cases hcommon : content.claims <;>
            simp [htype, hcontent, hcommon, pure, Except.pure]
      · simp [htype, hfound]

/-- Claims that a document spells were built. -/
theorem built_of_claims {content : Content} {common : Claims} (h : content.claims = .ok common) :
    common.Built := by
  obtain ⟨builder, -, hbuild⟩ := Outcome.bind_eq_ok_iff.mp h
  exact ⟨builder, Instant.last, ⟨""⟩, Outcome.mapError_eq_ok_iff.mp hbuild⟩

/-- Decoded claims were built. -/
theorem built_of_decode {bytes : List UInt8} {expected : TokenType} {claims : TokenClaims}
    (h : decode bytes expected = .ok claims) : claims.common.Built := by
  obtain ⟨fields, content, common, -, -, -, hcommon, rfl⟩ := decode_eq_ok_iff.mp h
  rw [TokenClaims.common_ofType]
  exact built_of_claims hcommon

end Wire

/-- A token is parsed when it unseals and its payload decodes. -/
theorem Codec.parse_eq_ok_iff {codec : Codec} {clock : Instant} {token : String}
    {expected : TokenType} {claims : TokenClaims} :
    codec.parse clock token expected = .ok claims ↔
      ∃ payload, codec.sealer.unsealPayload clock token = .ok payload ∧
        Wire.decode payload expected = .ok claims := by
  rw [parse]
  cases codec.sealer.unsealPayload clock token with
  | error error => simp
  | ok payload => simp [Outcome.mapError_eq_ok_iff]

/-- Parsed claims were built. -/
theorem Codec.built_of_parse {codec : Codec} {clock : Instant} {token : String}
    {expected : TokenType} {claims : TokenClaims}
    (h : codec.parse clock token expected = .ok claims) : claims.common.Built := by
  obtain ⟨payload, -, hdecode⟩ := parse_eq_ok_iff.mp h
  exact Wire.built_of_decode hdecode

end OpaqueTokens
