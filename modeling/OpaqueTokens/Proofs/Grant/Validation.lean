import OpaqueTokens.Grant.Validator
import OpaqueTokens.Proofs.Cache.Replay
import OpaqueTokens.Proofs.Cache.Revocation
import OpaqueTokens.Proofs.Grant.Requirements
import OpaqueTokens.Proofs.TypeSafety

/-!
# What validators ask

Over the caches in memory a validator is exact: a grant is accepted just when it unseals, decodes
as the right type, belongs to the client, has not expired at the time that the caller names, and
is neither a code whose mark lasts longer than what the clock shows nor a refresh token whose
lineage has a record that does. An access token is asked for the same, but for the client. The
answer to a request that fails several of these is about the first one.
-/

namespace OpaqueTokens

open Requirement
open Time (Instant Reading Span)

/-- A validator of grants over the caches in memory. -/
def GrantValidator.inMemory (codec : Codec) (replayRevocation : Option Span) :
    GrantValidator Caches :=
  ⟨codec, .inMemory, replayRevocation⟩

/-- A validator of access tokens over the caches in memory. -/
def AccessValidator.inMemory (codec : Codec) : AccessValidator Caches :=
  ⟨codec, .inMemory⟩

/-- The caches after a code was used again, which may revoke its lineage. -/
def Caches.replayed (caches : Caches) (replayRevocation : Option Span) (now : Reading)
    (code : CodeClaims) : Caches :=
  match replayRevocation with
  | none => caches
  | some span =>
    { caches with
      revocation := caches.revocation.revokeUntil code.common.lineage (now.after span) }

/-- The caches after the first use of a code. -/
def Caches.used (caches : Caches) (code : CodeClaims) : Caches :=
  { caches with replay := caches.replay.put code.common.id code.common.expiresAt }

namespace GrantValidator

variable (codec : Codec) (replayRevocation : Option Span) (clock : Instant) (now : Reading)
  (client : String) (caches : Caches)

/-- A code is checked for its client, its expiry and its first use, and then marked. -/
theorem validateClaims_code (code : CodeClaims) :
    (inMemory codec replayRevocation).validateClaims clock now client (.code code) caches =
      if code.common.clientId.text ≠ client then (caches, .error (.invalidGrant .clientMismatch))
      else if code.common.expiresAt ≤ now.universal then (caches, .error (.invalidGrant .expired))
      else if caches.replay.isMarked code.common.id clock = true then
        (caches.replayed replayRevocation now code, .error (.invalidGrant .replayed))
      else (caches.used code, .ok (.code code)) := by
  by_cases hclient : code.common.clientId.text ≠ client
  · simp [validateClaims, TokenClaims.common, hclient]
  · by_cases hexpired : code.common.expiresAt ≤ now.universal
    · simp [validateClaims, TokenClaims.common, hclient, Claims.isExpiredAt, hexpired]
    · simp only [validateClaims, TokenClaims.common, hclient, Claims.isExpiredAt, hexpired,
        decide_false, if_false, Bool.false_eq_true]
      by_cases hmarked : caches.replay.isMarked code.common.id clock = true
      · cases replayRevocation <;>
          simp [checkSingleUse, inMemory, Stores.inMemory, ReplayCache.check_eq, hmarked,
            Caches.replayed]
      · simp [checkSingleUse, inMemory, Stores.inMemory, ReplayCache.check_eq, hmarked,
          Caches.used]

/-- A refresh token is checked for its client, its expiry and its lineage. -/
theorem validateClaims_refresh (refresh : RefreshClaims) :
    (inMemory codec replayRevocation).validateClaims clock now client (.refresh refresh) caches =
      (caches,
        if refresh.common.clientId.text ≠ client then .error (.invalidGrant .clientMismatch)
        else if refresh.common.expiresAt ≤ now.universal then .error (.invalidGrant .expired)
        else if caches.revocation.isRevoked refresh.common.lineage clock = true then
          .error (.invalidGrant .revoked)
        else .ok (.refresh refresh)) := by
  by_cases hclient : refresh.common.clientId.text ≠ client
  · simp [validateClaims, TokenClaims.common, hclient]
  · by_cases hexpired : refresh.common.expiresAt ≤ now.universal
    · simp [validateClaims, TokenClaims.common, hclient, Claims.isExpiredAt, hexpired]
    · by_cases hrevoked : caches.revocation.isRevoked refresh.common.lineage clock = true <;>
        simp [validateClaims, TokenClaims.common, hclient, Claims.isExpiredAt, hexpired, inMemory,
          Stores.inMemory, hrevoked]

section Parsing

variable (moments : Moments)

/-- A grant that cannot be parsed leaves the caches alone. -/
theorem validate_of_error {token : String} {kind : GrantKind} {error : CodecError}
    (h : codec.parse moments.unsealing token kind.tokenType = .error error) :
    (inMemory codec replayRevocation).validate moments now token kind client caches =
      (caches, .error (.ofCodec error)) := by
  have hcodec : (inMemory codec replayRevocation).codec = codec := rfl
  simp only [validate, hcodec, h]

/-- A grant that can be parsed is judged by its claims. -/
theorem validate_of_parse {token : String} {kind : GrantKind} {claims : TokenClaims}
    (h : codec.parse moments.unsealing token kind.tokenType = .ok claims) :
    (inMemory codec replayRevocation).validate moments now token kind client caches =
      (inMemory codec replayRevocation).validateClaims moments.lookup now client claims caches := by
  have hcodec : (inMemory codec replayRevocation).codec = codec := rfl
  simp only [validate, hcodec, h]

/-- The answer to a grant is about parsing it, and then about its claims. -/
theorem validate_snd (token : String) (kind : GrantKind) :
    ((inMemory codec replayRevocation).validate moments now token kind client caches).2 =
      ((codec.parse moments.unsealing token kind.tokenType).mapError .ofCodec).bind fun claims =>
        ((inMemory codec replayRevocation).validateClaims moments.lookup now client claims
          caches).2 := by
  cases hparse : codec.parse moments.unsealing token kind.tokenType with
  | error error => rw [validate_of_error codec replayRevocation now client caches moments hparse]; rfl
  | ok claims => rw [validate_of_parse codec replayRevocation now client caches moments hparse]; rfl

end Parsing

end GrantValidator

/-- What is asked of the claims of a grant. Its expiry goes by the time that the caller names. A mark
of a code and a record of a refresh token's lineage must have lapsed by the clock. -/
def grantRequirements (caches : Caches) (clock now : Instant) (client : String)
    (claims : TokenClaims) : List Requirement :=
  [⟨claims.common.clientId.text = client, .invalidGrant .clientMismatch⟩,
   ⟨now < claims.common.expiresAt, .invalidGrant .expired⟩,
   ⟨claims.type = .authorizationCode → ∀ held,
      caches.replay.find? claims.common.id = some held → held ≤ clock, .invalidGrant .replayed⟩,
   ⟨claims.type = .refreshToken → ∀ held,
      caches.revocation.find? claims.common.lineage = some held → held ≤ clock.deadline,
    .invalidGrant .revoked⟩]

/-- What is asked of the claims of an access token. -/
def accessRequirements (caches : Caches) (clock now : Instant) (claims : TokenClaims) :
    List Requirement :=
  [⟨now < claims.common.expiresAt, .invalidGrant .expired⟩,
   ⟨∀ held, caches.revocation.find? claims.common.lineage = some held → held ≤ clock.deadline,
    .invalidGrant .revoked⟩]

namespace GrantValidator

/-- What is asked of the claims of a grant decides their validation. -/
theorem decides_validateClaims (codec : Codec) (replayRevocation : Option Span) (clock : Instant)
    (now : Reading) (client : String) (caches : Caches) (claims : TokenClaims)
    (htype : claims.type ≠ .accessToken) :
    Decides (grantRequirements caches clock now.universal client claims)
      ((inMemory codec replayRevocation).validateClaims clock now client claims caches).2 := by
  cases claims with
  | code code =>
    rw [validateClaims_code]
    simp only [apply_ite Prod.snd]
    refine Decides.guard (by simp [TokenClaims.common]) fun _ => ?_
    refine Decides.guard (by simp [TokenClaims.common, Instant.le_def, Instant.lt_def]) fun _ => ?_
    refine Decides.guard (by simp [TokenClaims.type, TokenClaims.common,
      ← ReplayCache.isMarked_eq_false_iff]) fun _ => ?_
    exact (decides_nil _).cons_met (by simp [TokenClaims.type])
  | refresh refresh =>
    rw [validateClaims_refresh]
    refine Decides.guard (by simp [TokenClaims.common]) fun _ => ?_
    refine Decides.guard (by simp [TokenClaims.common, Instant.le_def, Instant.lt_def]) fun _ => ?_
    refine Decides.cons_met ?_ (by simp [TokenClaims.type])
    exact Decides.guard (by simp [TokenClaims.type, TokenClaims.common,
      ← RevocationCache.isRevoked_eq_false_iff]) fun _ => decides_nil _
  | access access => exact absurd rfl htype

/-- What is asked of a grant decides its validation. -/
theorem decides_validate (codec : Codec) (replayRevocation : Option Span) (moments : Moments)
    (now : Reading) (token : String) (kind : GrantKind) (client : String) (caches : Caches) :
    Decides (codec.requirements moments.unsealing token kind.tokenType
        (grantRequirements caches moments.lookup now.universal client))
      ((inMemory codec replayRevocation).validate moments now token kind client caches).2 := by
  rw [validate_snd]
  refine Codec.decides_requirements fun claims hparse => decides_validateClaims codec
    replayRevocation moments.lookup now client caches claims fun htype => ?_
  cases claims with
  | code code => cases htype
  | refresh refresh => cases htype
  | access access => exact kind.parse_ne_access access hparse

end GrantValidator

/-- The claims that a grant was accepted for. -/
def ValidatedGrant.claims : ValidatedGrant → TokenClaims
  | .code claims => .code claims
  | .refresh claims => .refresh claims

namespace GrantValidator

section AnyStores

variable {σ : Type} {validator : GrantValidator σ} {state : σ} {moments : Moments} {now : Reading}
  {client : String} {grant : ValidatedGrant}

/-- Whatever the stores do, a grant is accepted for the claims that were checked. -/
theorem claims_of_validateClaims {clock : Instant} {claims : TokenClaims}
    (h : (validator.validateClaims clock now client claims state).2 = .ok grant) :
    grant.claims = claims := by
  unfold validateClaims at h
  dsimp only at h
  split at h
  · cases h
  · split at h
    · cases h
    · cases claims with
      | code code =>
        obtain ⟨-, -, rfl⟩ := Outcome.map_eq_ok_iff.mp h
        rfl
      | refresh refresh =>
        dsimp only at h
        split at h
        · cases h
        · cases h
        · exact Except.ok.inj h ▸ rfl
      | access access => cases h

/-- Whatever the stores do, a grant is accepted for the claims that its token was parsed as. -/
theorem parse_of_validate {token : String} {kind : GrantKind}
    (h : (validator.validate moments now token kind client state).2 = .ok grant) :
    validator.codec.parse moments.unsealing token kind.tokenType = .ok grant.claims := by
  rw [validate] at h
  split at h
  · cases h
  · rename_i claims hparse
    rw [claims_of_validateClaims h, hparse]

end AnyStores

/-- A grant is accepted for the claims that its token was parsed as. -/
theorem claims_of_validate {codec : Codec} {replayRevocation : Option Span} {moments : Moments}
    {now : Reading} {client token : String} {kind : GrantKind} {caches : Caches}
    {grant : ValidatedGrant}
    (h : ((inMemory codec replayRevocation).validate moments now token kind client caches).2 =
      .ok grant) : codec.parse moments.unsealing token kind.tokenType = .ok grant.claims :=
  parse_of_validate h

end GrantValidator

namespace AccessValidator

/-- The checks of the claims of an access token. -/
def check (caches : Caches) (clock now : Instant) (c : Claims) : Except GrantError Unit :=
  if c.expiresAt ≤ now then .error (.invalidGrant .expired)
  else if caches.revocation.isRevoked c.lineage clock = true then .error (.invalidGrant .revoked)
  else .ok ()

/-- The answer to an access token is about parsing it, and then about its claims. -/
theorem validate_eq (codec : Codec) (moments : Moments) (now : Instant) (token : String)
    (caches : Caches) :
    (inMemory codec).validate moments now token caches =
      ((codec.parseAccess moments.unsealing token).mapError .ofCodec).bind fun access =>
        (check caches moments.lookup now access.common).map fun _ => access := by
  have hcodec : (inMemory codec).codec = codec := rfl
  rw [validate, hcodec]
  cases codec.parseAccess moments.unsealing token with
  | error error => rfl
  | ok access =>
    by_cases hexpired : access.common.expiresAt ≤ now
    · simp [check, Claims.isExpiredAt, hexpired]
    · by_cases hrevoked :
          caches.revocation.isRevoked access.common.lineage moments.lookup = true <;>
        simp [check, Claims.isExpiredAt, hexpired, inMemory, Stores.inMemory, hrevoked]

/-- What is asked of an access token decides its validation. -/
theorem decides_validate (codec : Codec) (moments : Moments) (now : Instant) (token : String)
    (caches : Caches) :
    Decides (codec.requirements moments.unsealing token .accessToken
        (accessRequirements caches moments.lookup now))
      ((inMemory codec).validate moments now token caches) := by
  have hmap : ((inMemory codec).validate moments now token caches).map (fun _ => ()) =
      ((codec.parse moments.unsealing token .accessToken).mapError .ofCodec).bind fun claims =>
        check caches moments.lookup now claims.common := by
    rw [validate_eq, codec.parse_accessToken]
    cases codec.parseAccess moments.unsealing token with
    | error error => rfl
    | ok access => cases hcheck : check caches moments.lookup now access.common <;>
        simp [hcheck, TokenClaims.common]
  rw [← decides_map_iff fun _ => (), hmap]
  refine Codec.decides_requirements fun claims _ => ?_
  refine Decides.guard (by simp [Instant.le_def, Instant.lt_def]) fun _ => ?_
  exact Decides.guard (by simp [← RevocationCache.isRevoked_eq_false_iff]) fun _ => decides_nil _

/-- An access token is accepted for the claims that it was parsed as. -/
theorem claims_of_validate {codec : Codec} {moments : Moments} {now : Instant} {token : String}
    {caches : Caches} {access : AccessClaims}
    (h : (inMemory codec).validate moments now token caches = .ok access) :
    codec.parse moments.unsealing token .accessToken = .ok (.access access) := by
  rw [validate_eq] at h
  obtain ⟨parsed, hparsed, hcheck⟩ := Outcome.bind_eq_ok_iff.mp h
  obtain ⟨-, -, rfl⟩ := Outcome.map_eq_ok_iff.mp hcheck
  exact Codec.parseAccess_eq_ok_iff.mp (Outcome.mapError_eq_ok_iff.mp hparsed)

end AccessValidator

end OpaqueTokens
