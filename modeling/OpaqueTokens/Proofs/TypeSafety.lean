import OpaqueTokens.Codec
import OpaqueTokens.Grant.Validator
import OpaqueTokens.Proofs.Claims.Types

/-!
# One token, one type

What holds of payloads holds of tokens: whatever the sealer and the clock, a token is accepted as
one type at most, and answered with its true type when it is asked for another. So the checks
after parsing that look at the type once more never fail.
-/

namespace OpaqueTokens

open Time (Instant)

namespace Codec

/-- The error that parsing reports for a token of another type. -/
def typeMismatch (expected found : TokenType) : CodecError :=
  .parse (.typeMismatch expected found)

/-- A mismatch is an error about the type. -/
theorem isTypeMismatch_iff {error : CodecError} :
    error.isTypeMismatch = true ↔ ∃ expected found, error = typeMismatch expected found := by
  constructor
  · intro h
    unfold CodecError.isTypeMismatch at h
    split at h
    · exact ⟨_, _, rfl⟩
    · cases h
  · rintro ⟨expected, found, rfl⟩
    rfl

/-- Parsing reports an error of the sealer just when unsealing does. -/
theorem parse_eq_sealing_iff {codec : Codec} {clock : Instant} {token : String}
    {type : TokenType} {error : SealingError} :
    codec.parse clock token type = .error (.sealing error) ↔
      codec.sealer.unsealPayload clock token = .error error := by
  rw [parse]
  cases codec.sealer.unsealPayload clock token with
  | error found => simp
  | ok payload => cases hdecode : Wire.decode payload type <;> simp [hdecode]

/-- Every token is of one type or refused alike for all three. -/
theorem parse_consistent (codec : Codec) (clock : Instant) (token : String) :
    Consistent typeMismatch (codec.parse clock token) := by
  cases hunseal : codec.sealer.unsealPayload clock token with
  | error error =>
    exact consistent_of_cases (.inl ⟨.sealing error, by simp [typeMismatch], fun expected => by
      simp [parse, hunseal]⟩)
  | ok payload =>
    have hparse : codec.parse clock token = fun expected =>
        (Wire.decode payload expected).mapError .parse := by
      funext expected
      simp [parse, hunseal]
    rw [hparse]
    exact (Wire.decode_consistent payload).mapError fun _ _ heq => CodecError.parse.inj heq

/-- What is parsed as a type is of that type. -/
theorem type_of_parse {codec : Codec} {clock : Instant} {token : String} {type : TokenType}
    {claims : TokenClaims} (h : codec.parse clock token type = .ok claims) : claims.type = type :=
  ((codec.parse_consistent clock token).of_ok h).type_eq claims h

/-- Looking at the type once more after parsing as a type changes nothing. -/
theorem parse_eq_map {codec : Codec} {clock : Instant} {token : String} {type : TokenType}
    {α : Type} {wrap : α → TokenClaims} {select : TokenClaims → Except CodecError α}
    (hselect : ∀ claims, claims.type = type → (select claims).map wrap = .ok claims) :
    codec.parse clock token type = (codec.parse clock token type >>= select).map wrap := by
  cases h : codec.parse clock token type with
  | error error => rfl
  | ok claims => exact (hselect claims (type_of_parse h)).symm

/-- Parsing a code is parsing as a code: the claims are of one. -/
theorem parse_authorizationCode (codec : Codec) (clock : Instant) (token : String) :
    codec.parse clock token .authorizationCode = (codec.parseCode clock token).map .code := by
  apply parse_eq_map
  intro claims htype
  cases claims with
  | code claims => rfl
  | access claims | refresh claims => cases htype

/-- Parsing an access token is parsing as an access token: the claims are of one. -/
theorem parse_accessToken (codec : Codec) (clock : Instant) (token : String) :
    codec.parse clock token .accessToken = (codec.parseAccess clock token).map .access := by
  apply parse_eq_map
  intro claims htype
  cases claims with
  | access claims => rfl
  | code claims | refresh claims => cases htype

/-- Parsing a refresh token is parsing as a refresh token: the claims are of one. -/
theorem parse_refreshToken (codec : Codec) (clock : Instant) (token : String) :
    codec.parse clock token .refreshToken = (codec.parseRefresh clock token).map .refresh := by
  apply parse_eq_map
  intro claims htype
  cases claims with
  | refresh claims => rfl
  | code claims | access claims => cases htype

/-- A code is parsed just when a token is parsed as a code. -/
theorem parseCode_eq_ok_iff {codec : Codec} {clock : Instant} {token : String}
    {code : CodeClaims} : codec.parseCode clock token = .ok code ↔
      codec.parse clock token .authorizationCode = .ok (.code code) := by
  rw [parse_authorizationCode, Outcome.map_eq_ok_iff]
  simp

/-- An access token is parsed just when a token is parsed as an access token. -/
theorem parseAccess_eq_ok_iff {codec : Codec} {clock : Instant} {token : String}
    {access : AccessClaims} : codec.parseAccess clock token = .ok access ↔
      codec.parse clock token .accessToken = .ok (.access access) := by
  rw [parse_accessToken, Outcome.map_eq_ok_iff]
  simp

/-- A refresh token is parsed just when a token is parsed as a refresh token. -/
theorem parseRefresh_eq_ok_iff {codec : Codec} {clock : Instant} {token : String}
    {refresh : RefreshClaims} : codec.parseRefresh clock token = .ok refresh ↔
      codec.parse clock token .refreshToken = .ok (.refresh refresh) := by
  rw [parse_refreshToken, Outcome.map_eq_ok_iff]
  simp

end Codec

/-- A token that is parsed as a grant is no access token. -/
theorem GrantKind.parse_ne_access {codec : Codec} {clock : Instant} {token : String}
    (kind : GrantKind) (access : AccessClaims) :
    codec.parse clock token kind.tokenType ≠ .ok (.access access) := by
  intro h
  have htype := Codec.type_of_parse h
  cases kind <;> cases htype

/-- Every payload and every token is of one type at most. Who asks for that type is never told of
another one, who asks for any other type is told the true one, and the typed ways of parsing and
the validator of grants never see claims of a type that they did not ask for. -/
theorem no_type_confusion :
    (∀ bytes, Consistent .typeMismatch (Wire.decode bytes)) ∧
      ∀ (codec : Codec) (clock : Instant) (token : String),
        Consistent Codec.typeMismatch (codec.parse clock token) ∧
        (∀ type claims, codec.parse clock token type = .ok claims →
          ∀ other, other ≠ type →
            codec.parse clock token other = .error (Codec.typeMismatch other type)) ∧
        codec.parse clock token .authorizationCode = (codec.parseCode clock token).map .code ∧
        codec.parse clock token .accessToken = (codec.parseAccess clock token).map .access ∧
        codec.parse clock token .refreshToken = (codec.parseRefresh clock token).map .refresh ∧
        ∀ (kind : GrantKind) (access : AccessClaims),
          codec.parse clock token kind.tokenType ≠ .ok (.access access) := by
  refine ⟨Wire.decode_consistent, fun codec clock token => ?_⟩
  refine ⟨codec.parse_consistent clock token, ?_, codec.parse_authorizationCode clock token,
    codec.parse_accessToken clock token, codec.parse_refreshToken clock token,
    GrantKind.parse_ne_access⟩
  intro type claims hok other hne
  exact ((codec.parse_consistent clock token).of_ok hok).others other hne

end OpaqueTokens
