import OpaqueTokens.Proofs.Claims.Containment
import OpaqueTokens.Proofs.Config
import OpaqueTokens.Proofs.Grant.Acceptance
import OpaqueTokens.Proofs.Grant.Runs
import OpaqueTokens.Proofs.Grant.Sets
import OpaqueTokens.Proofs.Reading

/-!
# What is minted

A token is honoured as long as it is not expired, not marked if it is a code, and not revoked if it
is another token. Only honoured grants lead to tokens, which stay in the lineage of the grant. With
a configuration whose refresh tokens live no shorter than its access tokens all of them expire by
the time that a refresh token minted now would expire.
-/

namespace OpaqueTokens

open Crypto (Gcm.aead)
open Time (Deadline Instant Reading Span)

/-- Claims that a service honours, as far as time and its caches are concerned. Marks and
revocations go by the clock, the expiry by the time that a caller names. -/
structure TokenClaims.Honoured (claims : TokenClaims) (caches : Caches) (clock now : Instant) :
    Prop where
  unexpired : now < claims.common.expiresAt
  unmarked : claims.type = .authorizationCode →
    caches.replay.isMarked claims.common.id clock = false
  unrevoked : claims.type ≠ .authorizationCode →
    caches.revocation.isRevoked claims.common.lineage clock = false

/-- A grant that is accepted is honoured. -/
theorem GrantValidator.honoured_of_validate {codec : Codec} {replayRevocation : Option Span}
    {moments : Moments} {now : Reading} {token client : String} {kind : GrantKind}
    {caches : Caches} {grant : ValidatedGrant}
    (h : ((inMemory codec replayRevocation).validate moments now token kind client caches).2 =
      .ok grant) : grant.claims.Honoured caches moments.lookup now.universal := by
  have hparse := claims_of_validate h
  rw [validate_of_parse _ _ _ _ _ _ hparse] at h
  have htype : grant.claims.type ≠ .accessToken := by
    rw [Codec.type_of_parse hparse]
    cases kind <;> decide
  have hmet := (decides_validateClaims codec replayRevocation moments.lookup now client caches
    grant.claims htype).ok_iff.mp ⟨grant, h⟩
  simp only [grantRequirements, List.forall_mem_cons, List.not_mem_nil, false_imp_iff,
    implies_true] at hmet
  obtain ⟨-, hunexpired, hunmarked, hunrevoked, -⟩ := hmet
  refine ⟨hunexpired, fun hcode => ReplayCache.isMarked_eq_false_iff.mpr (hunmarked hcode),
    fun hcode => RevocationCache.isRevoked_eq_false_iff.mpr (hunrevoked ?_)⟩
  cases htype' : grant.claims.type with
  | authorizationCode => exact absurd htype' hcode
  | accessToken => exact absurd htype' htype
  | refreshToken => rfl

/-- An access token that is accepted is honoured. -/
theorem AccessValidator.honoured_of_validate {codec : Codec} {moments : Moments} {now : Instant}
    {token : String} {caches : Caches} {access : AccessClaims}
    (h : (inMemory codec).validate moments now token caches = .ok access) :
    (TokenClaims.access access).Honoured caches moments.lookup now := by
  rw [validate_eq] at h
  obtain ⟨parsed, -, hanswer⟩ := Outcome.bind_eq_ok_iff.mp h
  obtain ⟨met, hchecked, rfl⟩ := Outcome.map_eq_ok_iff.mp hanswer
  rw [check, Outcome.ite_error_eq_ok_iff, Outcome.ite_error_eq_ok_iff] at hchecked
  obtain ⟨hunexpired, hunrevoked, -⟩ := hchecked
  refine ⟨Int.not_le.mp hunexpired, fun hcode => ?_, fun _ => Bool.eq_false_iff.mpr hunrevoked⟩
  cases hcode

namespace Config

variable {config : Config} {i now : Instant}

/-- When a refresh token that is minted now expires. -/
def horizon (config : Config) (now : Instant) : Deadline :=
  now.reading.after config.lifetimes.refreshToken

end Config

namespace Claims

variable {config : Config} {claims derived : Claims} {now : Instant} {fresh : TokenId}

/-- What is derived for the lifetime of refresh tokens expires by the horizon. -/
theorem derive_refreshToken_le_horizon
    (h : claims.derive config.lifetimes.refreshToken now fresh = .ok derived) :
    derived.expiresAt.deadline ≤ config.horizon now :=
  Instant.deadline_le_after_iff.mpr (expiresAt_of_derive h)

/-- What is derived for the lifetime of access tokens expires by the horizon. -/
theorem derive_accessToken_le_horizon (hconfig : config.validate = .ok ())
    (h : claims.derive config.lifetimes.accessToken now fresh = .ok derived) :
    derived.expiresAt.deadline ≤ config.horizon now := by
  have hspan : config.lifetimes.accessToken.nanos ≤ config.lifetimes.refreshToken.nanos :=
    Config.accessToken_le_refreshToken hconfig
  have hexpiry := expiresAt_of_derive h
  rw [Config.horizon, Instant.deadline_le_after_iff]
  omega

end Claims

/-- A set is of a lineage: its access token is, and so is whatever its tokens read as, which also
expires by a deadline. -/
structure TokenSet.Within (set : TokenSet) (codec : Codec) (lineage : TokenId)
    (deadline : Deadline) : Prop where
  lineage_eq : set.claims.common.lineage = lineage
  tokens : ∀ token ∈ set.tokens, codec.ReadsWithin token lineage deadline

namespace Service

variable {config : Config} {ring : Keyring} {now : Instant} {draw : Draw} {set : TokenSet}

/-- The tokens of a redeemed code stay in its lineage. -/
theorem Mints.within (hring : ring.Reachable) (hconfig : config.validate = .ok ())
    {code : CodeClaims} (h : (ofRing config ring).Mints now draw code set) :
    set.Within (Codec.ofRing Gcm.aead ring) code.common.lineage (config.horizon now) := by
  have hlineage : set.claims.common.lineage = code.common.lineage :=
    Claims.lineage_of_derive h.derived
  refine ⟨hlineage, fun token htoken => ?_⟩
  rw [TokenSet.tokens, List.mem_cons, Option.mem_toList] at htoken
  rcases htoken with rfl | htoken
  · rw [← hlineage]
    exact Codec.readsWithin_of_issue hring h.made.issued
      (Claims.derive_accessToken_le_horizon hconfig h.derived)
  · obtain ⟨refresh, hderived, hissue⟩ := h.refresh token htoken
    rw [← Claims.lineage_of_derive hderived]
    exact Codec.readsWithin_of_issue hring hissue
      (Claims.derive_refreshToken_le_horizon hderived)

/-- The access token of a redeemed code is of its lineage. -/
theorem lineage_of_mint {σ : Type} {service : Service σ} {code : CodeClaims}
    (h : service.mint now draw code = .ok set) :
    set.claims.common.lineage = code.common.lineage :=
  Claims.lineage_of_derive (mints_of_mint h).derived

/-- The access token of a redeemed refresh token stays in its lineage. -/
theorem Renews.within (hring : ring.Reachable) (hconfig : config.validate = .ok ())
    {requested : Option Scope} {refresh : RefreshClaims}
    (h : (ofRing config ring).Renews now draw requested refresh set) :
    set.Within (Codec.ofRing Gcm.aead ring) refresh.common.lineage (config.horizon now) := by
  obtain ⟨-, hderived⟩ := RefreshClaims.accessToken_eq_ok_iff.mp h.derived
  have hlineage : set.claims.common.lineage = refresh.common.lineage := by
    rw [Claims.lineage_of_derive hderived, RefreshClaims.narrowed]
    split <;> rfl
  refine ⟨hlineage, fun token htoken => ?_⟩
  rw [TokenSet.tokens, h.refresh_eq_none, Option.toList_none, List.mem_singleton] at htoken
  subst htoken
  rw [← hlineage]
  exact Codec.readsWithin_of_issue hring h.made.issued
    (Claims.derive_accessToken_le_horizon hconfig hderived)

/-- Tokens are minted for honoured claims of the token that the call presents, and stay in their
lineage. -/
theorem within_of_perform (hring : ring.Reachable) (hconfig : config.validate = .ok ())
    {call : Call} (hclock : call.ByClock) {caches : Caches}
    (h : ((ofRing config ring).perform call caches).2 = .set (.ok set)) :
    ∃ token ∈ call.operation.token?, ∃ claims, (Codec.ofRing Gcm.aead ring).Reads token claims ∧
      claims.Honoured caches call.moments.lookup call.moments.start ∧
      set.Within (Codec.ofRing Gcm.aead ring) claims.common.lineage
        (config.horizon call.moments.start) := by
  obtain ⟨moments, operation⟩ := call
  cases operation with
  | exchange now draw request =>
    obtain rfl : now = moments.start.reading := hclock
    have hset : ((ofRing config ring).exchange moments moments.start.reading draw request
        caches).2 = .ok set := Answer.set.inj h
    obtain ⟨grant, hgrant, hredeem⟩ := Outcome.bind_eq_ok_iff.mp hset
    have hparse := GrantValidator.claims_of_validate hgrant
    have hhonoured := GrantValidator.honoured_of_validate hgrant
    refine ⟨request.code, rfl, grant.claims, ⟨_, _, hparse⟩, hhonoured, ?_⟩
    cases grant with
    | code code => exact (mints_of_mint (mint_of_redeem hredeem)).within hring hconfig
    | refresh refresh => cases Codec.type_of_parse hparse
  | refresh now draw request =>
    obtain rfl : now = moments.start.reading := hclock
    have hset : ((ofRing config ring).refresh moments moments.start.reading draw request
        caches).2 = .ok set := Answer.set.inj h
    obtain ⟨grant, hgrant, hrenew⟩ := Outcome.bind_eq_ok_iff.mp hset
    have hparse := GrantValidator.claims_of_validate hgrant
    have hhonoured := GrantValidator.honoured_of_validate hgrant
    refine ⟨request.refreshToken, rfl, grant.claims, ⟨_, _, hparse⟩, hhonoured, ?_⟩
    cases grant with
    | code code => cases hrenew
    | refresh refresh => exact (renews_of_renew hrenew).within hring hconfig
  | issueCode | issueAccess | validateGrant | validateAccess | revoke | cleanupReplay
  | cleanupRevocation => cases h

end Service

/-- The claims of an access token in the lineage of the sample code. -/
def sampleAccess : AccessClaims where
  common := { Codec.sampleCode.common with
    id := sampleDraw.accessId
    expiresAt := ⟨600000000000, by decide, by decide⟩ }

theorem sampleAccess_built : sampleAccess.common.Built :=
  Claims.built_iff_wellFormed.mpr (by decide)

/-- The access token is parsed before its expiry. -/
theorem Codec.parse_sampleAccess {token : String}
    (h : Codec.sampleCodec.issue Codec.sampleNonce (.access sampleAccess) = .ok token)
    {clock : Instant} (hclock : clock.seconds < sampleAccess.common.expiresAt.seconds) :
    Codec.sampleCodec.parse clock token .accessToken = .ok (.access sampleAccess) :=
  Codec.parse_of_issue_of_wellFormed Crypto.Gcm.aead_seals Codec.sampleRing_reachable.sound h
    sampleAccess_built.wellFormed Codec.sampleCode_integral (by decide +kernel) hclock

/-- The access token is issued. -/
theorem Codec.exists_issue_sampleAccess :
    ∃ token, Codec.sampleCodec.issue Codec.sampleNonce (.access sampleAccess) = .ok token :=
  exists_issue_of_fitsCipher Codec.sampleNonce (by decide +kernel)

end OpaqueTokens
