import OpaqueTokens.Cli.Inspection
import OpaqueTokens.Proofs.TypeSafety

/-!
# Inspecting a token without knowing its type

An inspection that is not told a type tries one type after another, as long as the token is of
another type than the one that is tried. A token is of one type at most, so some type settles how it
is read: asking for that type is not answered with another one, and asking for any other type is
answered with another one or alike. Hence the inspection ends as if it had been told this type, in
whatever order the types are tried, and it never runs out of types.
-/

namespace OpaqueTokens

open Time (Instant)

/-- A type settles how a token is read: asking for it is not answered with another type, and asking
for any type is answered alike or with another type. -/
structure Codec.SettledBy (codec : Codec) (clock : Instant) (token : String) (found : TokenType) :
    Prop where
  own : ∀ error, codec.parse clock token found = .error error → ¬error.isTypeMismatch = true
  others : ∀ type, codec.parse clock token type = codec.parse clock token found ∨
    ∃ error, codec.parse clock token type = .error error ∧ error.isTypeMismatch = true

/-- Some type settles how a token is read: the type that the token is of, or any type if the token
is refused alike for all of them. -/
theorem Codec.exists_settledBy (codec : Codec) (clock : Instant) (token : String) :
    ∃ found, codec.SettledBy clock token found := by
  rcases codec.parse_consistent clock token with ⟨⟨error, hne, hrefused⟩, -⟩ | ⟨-, found, hfound, -⟩
  · refine ⟨.accessToken, fun other hother hmismatch => ?_, fun type => .inl ?_⟩
    · obtain rfl := Except.error.inj ((hrefused _).symm.trans hother)
      obtain ⟨expected, found, heq⟩ := Codec.isTypeMismatch_iff.mp hmismatch
      exact hne expected found heq
    · rw [hrefused type, hrefused]
  · refine ⟨found, fun error herror hmismatch => ?_, fun type => ?_⟩
    · obtain ⟨expected, other, rfl⟩ := Codec.isTypeMismatch_iff.mp hmismatch
      exact hfound.own expected other herror
    · by_cases htype : type = found
      · exact .inl (htype ▸ rfl)
      · exact .inr ⟨_, hfound.others type htype, rfl⟩

namespace Cli

/-- What an inspection reports about a token that cannot be parsed. -/
def InspectionError.ofCodec (error : CodecError) : InspectionError :=
  if error = .sealing .expired then .expired else .unreadable error

namespace InspectionError

/-- A token is reported as expired for the error of the sealer that says so. -/
theorem ofCodec_eq_expired_iff {error : CodecError} :
    ofCodec error = .expired ↔ error = .sealing .expired := by
  rw [ofCodec]
  split
  · rename_i h
    simp [h]
  · rename_i h
    simp [h]

/-- A token is reported as unreadable for every other error. -/
theorem ofCodec_of_ne {error : CodecError} (h : error ≠ .sealing .expired) :
    ofCodec error = .unreadable error :=
  if_neg h

/-- Only the report of an expired token says that the token has expired. -/
theorem message_eq_iff {error : InspectionError} :
    error.message = "token expired" ↔ error = .expired := by
  refine ⟨fun h => ?_, fun h => h ▸ rfl⟩
  cases error with
  | expired => rfl
  | unreadable error =>
    have hjoined : "Cannot read token: " ++ error.message = "token expired" := h
    have hchars := congrArg String.toList hjoined
    simp [String.toList_append] at hchars
  | untried => exact absurd h (by decide)

end InspectionError

variable {codec : Codec} {clock : Instant} {token : String} {found : TokenType}

/-- A token that is not of another type than the one that is tried is reported on. -/
theorem inspectAmong_cons_of_not_mismatch {type : TokenType}
    (h : ∀ error, codec.parse clock token type = .error error → ¬error.isTypeMismatch = true)
    (last : InspectionError) (types : List TokenType) :
    inspectAmong codec clock token last (type :: types) =
      (codec.parse clock token type).mapError .ofCodec := by
  rw [inspectAmong]
  cases hparse : codec.parse clock token type with
  | ok claims => rfl
  | error error =>
    simp only [if_neg (h error hparse), Outcome.mapError_error, InspectionError.ofCodec]
    split
    · rfl
    · rfl

/-- A token that is of another type than the one that is tried is tried as the others. -/
theorem inspectAmong_cons_of_mismatch {type : TokenType} {error : CodecError}
    (hparse : codec.parse clock token type = .error error)
    (hmismatch : error.isTypeMismatch = true) (last : InspectionError) (types : List TokenType) :
    inspectAmong codec clock token last (type :: types) =
      inspectAmong codec clock token (.unreadable error) types := by
  simp only [inspectAmong, hparse, if_pos hmismatch]

/-- An inspection that is told a type reports what parsing as this type leads to. -/
theorem inspect_some (codec : Codec) (clock : Instant) (token : String) (type : TokenType) :
    inspect codec clock token (some type) =
      (codec.parse clock token type).mapError .ofCodec := by
  by_cases h : ∀ error, codec.parse clock token type = .error error → ¬error.isTypeMismatch = true
  · exact inspectAmong_cons_of_not_mismatch h .untried []
  · obtain ⟨error, hparse, hmismatch⟩ : ∃ error, codec.parse clock token type = .error error ∧
        error.isTypeMismatch = true := by simpa using h
    have hne : error ≠ .sealing .expired := by
      rintro rfl
      cases hmismatch
    rw [inspect, candidates, inspectAmong_cons_of_mismatch hparse hmismatch, inspectAmong, hparse,
      Outcome.mapError_error, InspectionError.ofCodec_of_ne hne]

/-- An inspection that tries, among others, a type that settles how the token is read ends as if it
had been told this type, whatever is tried before and after it. -/
theorem inspectAmong_eq_inspect (h : codec.SettledBy clock token found) {types : List TokenType}
    (hmem : found ∈ types) (last : InspectionError) :
    inspectAmong codec clock token last types = inspect codec clock token (some found) := by
  induction types generalizing last with
  | nil => cases hmem
  | cons type types ih =>
    rcases h.others type with hsame | ⟨error, hparse, hmismatch⟩
    · rw [inspect_some, ← hsame]
      exact inspectAmong_cons_of_not_mismatch (hsame ▸ h.own) last types
    · rw [inspectAmong_cons_of_mismatch hparse hmismatch]
      refine ih ((List.mem_cons.mp hmem).resolve_left fun heq => ?_) _
      subst heq
      exact h.own error hparse hmismatch

/-- All types are tried if none is asked for. -/
theorem mem_candidates_none (type : TokenType) : type ∈ candidates none := by
  cases type <;> decide

/-- What a token is parsed as for some type, it is parsed as for the type that settles it. -/
theorem exists_parse_eq_ok_iff (h : codec.SettledBy clock token found) {claims : TokenClaims} :
    (∃ type, codec.parse clock token type = .ok claims) ↔
      codec.parse clock token found = .ok claims := by
  constructor
  · rintro ⟨type, hok⟩
    rcases h.others type with hsame | ⟨error, hparse, -⟩
    · rw [← hsame, hok]
    · rw [hparse] at hok
      cases hok
  · intro hok
    exact ⟨found, hok⟩

/-- An inspection that is told a type reports an expiry just when the sealer does. -/
theorem inspect_some_eq_expired_iff {type : TokenType} :
    inspect codec clock token (some type) = .error .expired ↔
      codec.sealer.unsealPayload clock token = .error .expired := by
  rw [inspect_some, ← Codec.parse_eq_sealing_iff]
  cases codec.parse clock token type with
  | ok claims => simp
  | error error => simp [InspectionError.ofCodec_eq_expired_iff]

/-- Inspecting a token without asking for a type agrees with parsing it. It succeeds just when the
token is parsed as some type, with the same claims, and asking for that type then makes no
difference. It says that the token has expired just when the sealer does. In all other cases it
reports the token as unreadable, for the error of a type that is not about the type. The types can
be tried in any order, and a token is never of another type than each of them. -/
theorem inspection_agrees (codec : Codec) (clock : Instant) (token : String) :
    (∀ claims, inspect codec clock token none = .ok claims ↔
      ∃ type, codec.parse clock token type = .ok claims) ∧
    (∀ type claims, codec.parse clock token type = .ok claims →
      inspect codec clock token none = inspect codec clock token (some type)) ∧
    ((∃ error, inspect codec clock token none = .error error ∧ error.message = "token expired") ↔
      codec.sealer.unsealPayload clock token = .error .expired) ∧
    ((∀ type claims, codec.parse clock token type ≠ .ok claims) →
      codec.sealer.unsealPayload clock token ≠ .error .expired →
        ∃ type error, codec.parse clock token type = .error error ∧
          ¬error.isTypeMismatch = true ∧
          inspect codec clock token none = .error (.unreadable error)) ∧
    (∀ types : List TokenType, (∀ type, type ∈ types) → ∀ last,
      inspectAmong codec clock token last types = inspect codec clock token none) ∧
    ¬∀ type, ∃ error, codec.parse clock token type = .error error ∧
      error.isTypeMismatch = true := by
  obtain ⟨found, hfound⟩ := codec.exists_settledBy clock token
  have hnone : inspect codec clock token none = inspect codec clock token (some found) :=
    inspectAmong_eq_inspect hfound (mem_candidates_none found) .untried
  have hok (claims : TokenClaims) : inspect codec clock token none = .ok claims ↔
      ∃ type, codec.parse clock token type = .ok claims := by
    rw [hnone, inspect_some, Outcome.mapError_eq_ok_iff, exists_parse_eq_ok_iff hfound]
  refine ⟨hok, fun type claims htype => ?_, ?_, fun hunread hsealer => ?_,
    fun types hall last => ?_, fun hall => ?_⟩
  · rw [(hok claims).mpr ⟨type, htype⟩, inspect_some, htype, Outcome.mapError_ok]
  · simp only [InspectionError.message_eq_iff, exists_eq_right]
    rw [hnone, inspect_some_eq_expired_iff]
  · cases hparse : codec.parse clock token found with
    | ok claims => exact absurd hparse (hunread found claims)
    | error error =>
      have hne : error ≠ .sealing .expired := fun h =>
        hsealer (Codec.parse_eq_sealing_iff.mp (h ▸ hparse))
      refine ⟨found, error, hparse, hfound.own error hparse, ?_⟩
      rw [hnone, inspect_some, hparse, Outcome.mapError_error, InspectionError.ofCodec_of_ne hne]
  · rw [hnone, inspectAmong_eq_inspect hfound (hall found)]
  · obtain ⟨error, hparse, hmismatch⟩ := hall found
    exact hfound.own error hparse hmismatch

end Cli

end OpaqueTokens
