import OpaqueTokens.Proofs.Claims.Containment
import OpaqueTokens.Proofs.Config
import OpaqueTokens.Proofs.Grant.Effects
import OpaqueTokens.Proofs.Grant.Sets
import OpaqueTokens.Proofs.Pkce
import OpaqueTokens.Proofs.Reading

/-!
# What is done right succeeds

A code that was issued, that its client redeems in time for the first time with the right address
and verifier, leads to a set of tokens. The access token is accepted for exactly the claims of the
set until it expires or its lineage is revoked, and the refresh token leads to further access tokens
that are accepted in the same way, any number of times. No layer refuses what the one before it
made. The configuration is an accepted one, the sealer is faithful and takes the tokens, and the
lifetimes do not lead past the last instant.
-/

namespace OpaqueTokens

open Requirement
open Time (Instant Reading)

/-- A request redeems a code as it should: it comes from the client of the code, repeats the address
that the code is bound to, and brings the verifier that the S256 challenge of the code was made
from. A code without a challenge needs no verifier where the policy does not ask for challenges. -/
structure CodeExchange.Fulfils (request : CodeExchange) (policy : PkcePolicy) (code : CodeClaims) :
    Prop where
  client : code.common.clientId.text = request.clientId
  redirect : ∀ uri, code.common.redirectUri = some uri → request.redirectUri = some uri
  verifier : (∃ verifier, request.codeVerifier = some verifier ∧
      code.codeChallenge = some (CodeChallenge.s256 verifier).stored) ∨
    (code.codeChallenge = none ∧ policy.force = false)

/-- The verifier of such a request is accepted. -/
theorem CodeExchange.Fulfils.verify {request : CodeExchange} {policy : PkcePolicy}
    {code : CodeClaims} (h : request.Fulfils policy code) :
    policy.verify code.codeChallenge request.codeVerifier = .ok () := by
  rcases h.verifier with ⟨verifier, hverifier, hchallenge⟩ | ⟨hchallenge, hforce⟩
  · rw [hverifier, hchallenge, policy.verify_s256]
  · rw [hchallenge, PkcePolicy.verify_none hforce]

/-- A token that carries claims of an access token is accepted for them until they expire, unless
their lineage is revoked. -/
theorem AccessValidator.validate_of_carries {codec : Codec} {clock : Instant} {token : String}
    {caches : Caches} {access : AccessClaims} (h : codec.Carries token (.access access))
    (hclock : clock < access.common.expiresAt)
    (hunrevoked : caches.revocation.isRevoked access.common.lineage clock = false) :
    (inMemory codec).validate clock clock token caches = .ok access := by
  have hparse : codec.parseAccess clock token = .ok access :=
    Codec.parseAccess_eq_ok_iff.mpr (h.parse hclock)
  have hunexpired : ¬access.common.expiresAt ≤ clock := Int.not_le.mpr hclock
  have hcheck : check caches clock clock access.common = .ok () := by
    rw [check, if_neg hunexpired, if_neg (by simp [hunrevoked])]
  rw [validate_eq, hparse, Outcome.mapError_ok, Outcome.bind_ok, hcheck, Outcome.map_ok]

/-- A set serves a grant with a scope, from an instant on: its access token is accepted for exactly
its claims at every time before they expire at which the lineage is not revoked, the claims are
contained in the grant and cover the scope, and the set says for how many seconds they are valid. -/
structure TokenSet.Serves (set : TokenSet) (config : Config) (codec : Codec) (grant : Claims)
    (scope : Scope) (since : Instant) : Prop where
  accepted : ∀ (clock : Instant) (caches : Caches), clock < set.claims.common.expiresAt →
    caches.revocation.isRevoked grant.lineage clock = false →
      (Service.inMemory config codec).validateAccess clock clock set.accessToken caches =
        .ok set.claims
  contained : set.claims.common.ContainedIn grant
  claims_scope : set.claims.common.scope = scope
  scope_eq : set.scope = scope
  expiresIn : set.expiresIn = config.lifetimes.accessToken.seconds
  expiresAt : set.claims.common.expiresAt.seconds =
    since.seconds + config.lifetimes.accessToken.seconds

/-- A refresh token can be renewed at an instant with the caches as they are: it has not expired and
its lineage is not revoked, an access token that is minted then does not lead past the last instant,
what is requested does not cut the scope down to nothing, and the sealer takes the access token. -/
structure RefreshClaims.Renewable (refresh : RefreshClaims) (config : Config) (codec : Codec)
    (caches : Caches) (now : Instant) (draw : Draw) (requested : Option Scope) : Prop where
  unexpired : now < refresh.common.expiresAt
  unrevoked : caches.revocation.isRevoked refresh.common.lineage now = false
  inTime : now.nanos + config.lifetimes.accessToken.nanos ≤ Time.lastNanos
  overlaps : (refresh.effectiveScope requested).isEmpty = true →
    refresh.common.scope.isEmpty = true
  sealed : ∀ access,
    refresh.accessToken requested config.lifetimes.accessToken now draw.accessId = .ok access →
      ∃ token, codec.issue draw.accessNonce (.access access) = .ok token

namespace Service

variable {config : Config} {codec : Codec} {clock : Instant} {draw : Draw} {set : TokenSet}
  {code : CodeClaims} {refresh : RefreshClaims} {caches : Caches}

/-- A set that is made around claims derived from readable claims of a grant serves the grant. -/
theorem serves_of_derive (hsealer : codec.sealer.Faithful) {claims grant : Claims}
    (hreadable : claims.Readable) (hcontained : claims.ContainedIn grant) {nonce : Nonce}
    (hderived : claims.derive config.lifetimes.accessToken clock draw.accessId =
      .ok set.claims.common)
    (hmade : set.MadeAround codec nonce) : set.Serves config codec grant claims.scope clock := by
  have hwithin : codec.CarriesWithin set.accessToken (.access set.claims) grant :=
    Codec.carriesWithin_of_derive hsealer hreadable hcontained hderived hmade.issued
  obtain ⟨-, hscope⟩ := Claims.contained_of_derive hreadable.wellFormed.floor_authTime hderived
  obtain ⟨hexpiresAt, hexpiresIn⟩ := Claims.seconds_of_derive hderived
  refine ⟨fun clock caches hclock hunrevoked => ?_, hwithin.contained, hscope,
    hmade.scope.trans hscope, hmade.expiresIn.trans hexpiresIn, hexpiresAt⟩
  exact AccessValidator.validate_of_carries hwithin.carries hclock
    (hwithin.contained.lineage ▸ hunrevoked)

/-- A refresh token that its client presents before it expires is renewed, unless its lineage is
revoked. The caches stay as they are. -/
theorem refresh_of_parse {moments : Moments} {now : Reading} {request : RefreshExchange}
    (hparse : codec.parse moments.unsealing request.refreshToken .refreshToken =
      .ok (.refresh refresh))
    (hclient : refresh.common.clientId.text = request.clientId)
    (hunexpired : now.universal < refresh.common.expiresAt)
    (hunrevoked : caches.revocation.isRevoked refresh.common.lineage moments.lookup = false) :
    (inMemory config codec).refresh moments now draw request caches =
      (caches, (inMemory config codec).renew now.universal draw request (.refresh refresh)) := by
  have hgrant : codec.parse moments.unsealing request.refreshToken
      GrantKind.refreshToken.tokenType = .ok (.refresh refresh) := hparse
  have hunexpired : ¬refresh.common.expiresAt ≤ now.universal := Int.not_le.mpr hunexpired
  have hlive : ¬caches.revocation.isRevoked refresh.common.lineage moments.lookup = true := by
    simp [hunrevoked]
  rw [Service.refresh, grantValidator_inMemory, GrantValidator.validate_of_parse _ _ _ _ _ _ hgrant,
    GrantValidator.validateClaims_refresh, if_neg (not_not_intro hclient), if_neg hunexpired,
    if_neg hlive]
  rfl

/-- A refresh token that can be renewed is renewed for a set. -/
theorem exists_renew (hconfig : config.validate = .ok ()) {request : RefreshExchange}
    (hreadable : refresh.common.Readable)
    (h : refresh.Renewable config codec caches clock draw request.scope) :
    ∃ set, (inMemory config codec).renew clock draw request (.refresh refresh) = .ok set := by
  have hlifetime : config.lifetimes.accessToken.MintableAt clock :=
    Config.mintableAt hconfig (.tail _ (.head _)) h.inTime
  obtain ⟨derived, hderived⟩ := Claims.exists_derive
    (hreadable.narrowed (refresh.effectiveScope request.scope)).wellFormed hlifetime draw.accessId
  have haccess : refresh.accessToken request.scope config.lifetimes.accessToken clock
      draw.accessId = .ok ⟨derived⟩ :=
    RefreshClaims.accessToken_eq_ok_iff.mpr ⟨h.overlaps, hderived⟩
  obtain ⟨set, hset⟩ : ∃ set,
      (inMemory config codec).tokenSet draw.accessNonce ⟨derived⟩ none = .ok set :=
    exists_tokenSet (h.sealed ⟨derived⟩ haccess) none
  exact ⟨set, Outcome.bind_eq_ok_iff.mpr ⟨⟨derived⟩, haccess, hset⟩⟩

/-- The set that a refresh token is renewed for serves the grant of the token with what is granted
and requested of it. -/
theorem serves_of_renew (hsealer : codec.sealer.Faithful) {grant : Claims}
    {request : RefreshExchange}
    (hwithin : codec.CarriesWithin request.refreshToken (.refresh refresh) grant)
    (h : (inMemory config codec).renew clock draw request (.refresh refresh) = .ok set) :
    set.refreshToken = none ∧
      set.Serves config codec grant (refresh.effectiveScope request.scope) clock := by
  have hreadable : refresh.common.Readable := hwithin.readable
  have hrenews := renews_of_renew h
  obtain ⟨-, hderived⟩ := RefreshClaims.accessToken_eq_ok_iff.mp hrenews.derived
  obtain ⟨hnarrowed, hcut⟩ :=
    refresh.contained_narrowed (refresh.containsAll_effectiveScope request.scope)
  have hserves := serves_of_derive hsealer (hreadable.narrowed _)
    (hnarrowed.trans hwithin.contained) hderived hrenews.made
  exact ⟨hrenews.refresh_eq_none, hcut ▸ hserves⟩

/-- A refresh of a token that can be renewed serves the grant of the token with what is granted and
requested of it, and leaves the caches as they are. -/
theorem exists_refresh (hsealer : codec.sealer.Faithful) (hconfig : config.validate = .ok ())
    {grant : Claims} {request : RefreshExchange}
    (hwithin : codec.CarriesWithin request.refreshToken (.refresh refresh) grant)
    (hclient : refresh.common.clientId.text = request.clientId)
    (h : refresh.Renewable config codec caches clock draw request.scope) :
    ∃ set, (inMemory config codec).refresh clock clock.reading draw request caches =
        (caches, .ok set) ∧ set.refreshToken = none ∧
      set.Serves config codec grant (refresh.effectiveScope request.scope) clock := by
  obtain ⟨set, hset⟩ := exists_renew hconfig hwithin.readable h
  have hrefresh : (inMemory config codec).refresh clock clock.reading draw request caches =
      (caches, (inMemory config codec).renew clock.reading.universal draw request
        (.refresh refresh)) :=
    @refresh_of_parse config codec draw refresh caches clock clock.reading request
      (hwithin.carries.parse h.unexpired) hclient h.unexpired h.unrevoked
  rw [Instant.universal_reading, hset] at hrefresh
  exact ⟨set, hrefresh, serves_of_renew hsealer hwithin hset⟩

/-- Redeeming a code as it should be redeemed makes a set. -/
theorem exists_redeem (hconfig : config.validate = .ok ()) {request : CodeExchange}
    (hcode : code.common.WellFormed) (hrequest : request.Fulfils config.pkce code)
    (hlast : clock.nanos + config.lifetimes.refreshToken.nanos ≤ Time.lastNanos)
    (hseals : (inMemory config codec).SealsMinted clock draw code) :
    ∃ set, (inMemory config codec).redeem clock draw request (.code code) = .ok set := by
  have hspan : config.lifetimes.accessToken.nanos ≤ config.lifetimes.refreshToken.nanos :=
    Config.accessToken_le_refreshToken hconfig
  refine (decides_redeem hcode hseals).ok_iff.mpr ?_
  simp only [redemptionRequirements, List.forall_mem_cons, List.not_mem_nil, false_imp_iff,
    implies_true]
  exact ⟨hrequest.redirect, hrequest.verify,
    Config.mintableAt hconfig (.tail _ (.head _)) (by omega),
    fun _ => Config.mintableAt hconfig (.tail _ (.tail _ (.head _))) hlast, trivial⟩

/-- Exchanging a code as it should be exchanged, in time and for the first time, marks the code and
makes a set of it. -/
theorem exists_exchange (hconfig : config.validate = .ok ()) {request : CodeExchange}
    (hcode : code.common.WellFormed) (hcarries : codec.Carries request.code (.code code))
    (hrequest : request.Fulfils config.pkce code) (hclock : clock < code.common.expiresAt)
    (hunmarked : caches.replay.isMarked code.common.id clock = false)
    (hlast : clock.nanos + config.lifetimes.refreshToken.nanos ≤ Time.lastNanos)
    (hseals : (inMemory config codec).SealsMinted clock draw code) :
    ∃ set, (inMemory config codec).exchange clock clock.reading draw request caches =
        (caches.used code, .ok set) ∧
      (inMemory config codec).Mints clock draw code set := by
  have hpresents : request.Presents codec clock clock.reading.universal code :=
    ⟨Codec.parseCode_eq_ok_iff.mpr (hcarries.parse hclock), hrequest.client, hclock⟩
  obtain ⟨set, hset⟩ := exists_redeem hconfig hcode hrequest hlast hseals
  refine ⟨set, ?_, mints_of_mint (mint_of_redeem hset)⟩
  rw [exchange_of_unmarked hpresents hunmarked, Instant.universal_reading, hset]

/-- A code that is issued, redeemed in time for the first time and as it should be, leads to a set
that serves its grant with its whole scope. The set has a refresh token just when the configuration
grants one for that scope. The refresh token lives as long as configured, and every refresh of it
that can be made leads to a set that serves the grant with what is granted and requested, and leaves
the caches and thereby all later refreshes as they are. -/
theorem flow_completes {config : Config} {codec : Codec} (hconfig : config.validate = .ok ())
    (hsealer : codec.sealer.Faithful) {code : CodeClaims} (hbuilt : code.common.Built)
    (hintegral : code.common.delivery.Integral) (hdepth : (Wire.document (.code code)).depth < 128)
    {nonce : Nonce} {request : CodeExchange}
    (hissue : (inMemory config codec).issueCode nonce code = .ok request.code)
    (hrequest : request.Fulfils config.pkce code) {clock : Instant}
    (hclock : clock < code.common.expiresAt) {caches : Caches}
    (hunmarked : caches.replay.isMarked code.common.id clock = false)
    (hlast : clock.nanos + config.lifetimes.refreshToken.nanos ≤ Time.lastNanos) {draw : Draw}
    (hseals : (inMemory config codec).SealsMinted clock draw code) :
    ∃ set, (inMemory config codec).exchange clock clock.reading draw request caches =
        (caches.used code, .ok set) ∧
      set.Serves config codec code.common code.common.scope clock ∧
      (set.refreshToken.isSome = true ↔
        (config.refresh.requireOfflineAccess = true →
          code.common.scope.hasOfflineAccess = true)) ∧
      ∀ refreshToken ∈ set.refreshToken, ∃ refresh : RefreshClaims,
        code.refreshToken config.lifetimes.refreshToken clock draw.refreshId = .ok refresh ∧
        codec.Carries refreshToken (.refresh refresh) ∧
        refresh.common.expiresAt.seconds =
          clock.seconds + config.lifetimes.refreshToken.seconds ∧
        refresh.common.ContainedIn code.common ∧
        refresh.common.scope = code.common.scope ∧
        ∀ later draw requested caches,
          refresh.Renewable config codec caches later draw requested →
            ∃ renewed, (inMemory config codec).refresh later later.reading draw
                ⟨refreshToken, request.clientId, requested⟩ caches = (caches, .ok renewed) ∧
              renewed.refreshToken = none ∧
              renewed.Serves config codec code.common (refresh.effectiveScope requested) later := by
  have hreadable : code.common.Readable :=
    @Claims.readable_of_depth (.code code) hbuilt hintegral hdepth
  have hcarries : codec.Carries request.code (.code code) :=
    Codec.carries_of_issue hsealer hreadable (issue_of_issueCode hissue)
  obtain ⟨set, hexchange, hmints⟩ := exists_exchange hconfig hreadable.wellFormed hcarries
    hrequest hclock hunmarked hlast hseals
  refine ⟨set, hexchange, ?_, ?_, fun refreshToken hrefreshToken => ?_⟩
  · exact serves_of_derive hsealer hreadable (.refl _) hmints.derived hmints.made
  · rw [hmints.refresh_isSome]
    exact mintsRefresh_iff
  · obtain ⟨refresh, hderived, hsealed⟩ := hmints.refresh refreshToken hrefreshToken
    have hwithin : codec.CarriesWithin refreshToken (.refresh refresh) code.common :=
      Codec.carriesWithin_of_derive hsealer hreadable (.refl _) hderived hsealed
    obtain ⟨-, hscope⟩ := Claims.contained_of_derive hreadable.wellFormed.floor_authTime hderived
    refine ⟨refresh, Outcome.map_eq_ok_iff.mpr ⟨_, hderived, rfl⟩, hwithin.carries,
      (Claims.seconds_of_derive hderived).1, hwithin.contained, hscope,
      fun later draw requested caches hrenewable => ?_⟩
    have hclient : refresh.common.clientId.text = request.clientId := by
      rw [← hrequest.client]
      exact congrArg _ hwithin.contained.clientId
    exact @exists_refresh config codec later draw refresh caches hsealer hconfig code.common
      ⟨refreshToken, request.clientId, requested⟩ hwithin hclient hrenewable

/-- A code for offline access with an S256 challenge. -/
def offlineCode : CodeClaims where
  common := { Codec.sampleCode.common with scope := Scope.ofText "offline_access openid profile" }
  codeChallenge := some (CodeChallenge.s256 "verifier").stored

/-- The claims of the refresh token that redeeming the code for offline access leads to. -/
def offlineRefresh : RefreshClaims where
  common := { offlineCode.common with
    id := sampleDraw.refreshId
    expiresAt := ⟨7200000000000, by decide, by decide⟩ }

theorem offlineCode_built : offlineCode.common.Built :=
  Claims.built_iff_wellFormed.mpr (by decide)

theorem refreshToken_offline :
    offlineCode.refreshToken sampleConfig.lifetimes.refreshToken sampleClock sampleDraw.refreshId =
      .ok offlineRefresh := by
  rfl

theorem offlineCode_readable : offlineCode.common.Readable :=
  @Claims.readable_of_depth (.code offlineCode) offlineCode_built Codec.sampleCode_integral
    (by decide +kernel)

/-- The code for offline access is issued. -/
theorem exists_issueCode_offline :
    ∃ token, sampleService.issueCode Codec.sampleNonce offlineCode = .ok token := by
  obtain ⟨token, hissue⟩ : ∃ token,
      Codec.sampleCodec.issue Codec.sampleNonce (.code offlineCode) = .ok token :=
    exists_issue_of_fitsCipher Codec.sampleNonce (by decide +kernel)
  refine ⟨token, ?_⟩
  rw [issueCode, if_neg (by decide), if_neg (by decide)]
  exact Outcome.mapError_eq_ok_iff.mpr hissue

/-- The cipher takes the tokens that redeeming the code for offline access mints. -/
theorem sealsMinted_offline : sampleService.SealsMinted sampleClock sampleDraw offlineCode :=
  (mintsWithin_of_fitsCipher (by decide +kernel) (by decide +kernel)).sealsMinted
    Codec.sampleRing_reachable

/-- The sample client redeems the code for offline access as it should. -/
theorem fulfils_offline (token : String) :
    (sampleRequest token).Fulfils sampleConfig.pkce offlineCode where
  client := rfl
  redirect _ huri := huri
  verifier := .inl ⟨"verifier", rfl, rfl⟩

/-- The code for offline access is exchanged for a set with a refresh token. -/
theorem exists_exchange_offline :
    ∃ token set refreshToken,
      sampleService.issueCode Codec.sampleNonce offlineCode = .ok token ∧
      sampleService.exchange sampleClock sampleClock.reading sampleDraw (sampleRequest token) {} =
        (Caches.used {} offlineCode, .ok set) ∧
      set.refreshToken = some refreshToken ∧
      Codec.sampleCodec.CarriesWithin refreshToken (.refresh offlineRefresh)
        offlineCode.common := by
  obtain ⟨token, hissue⟩ := exists_issueCode_offline
  have hsealed := issue_of_issueCode hissue
  have hcarries : Codec.sampleCodec.Carries token (.code offlineCode) :=
    Codec.carries_of_issue Codec.sampleCodec_faithful offlineCode_readable hsealed
  obtain ⟨set, hexchange, hmints⟩ := @exists_exchange sampleConfig Codec.sampleCodec sampleClock
    sampleDraw offlineCode {} rfl (sampleRequest token) offlineCode_readable.wellFormed hcarries
    (fulfils_offline token) (by decide) rfl (by decide) sealsMinted_offline
  obtain ⟨refreshToken, hrefreshToken⟩ := Option.isSome_iff_exists.mp
    (hmints.refresh_isSome.trans (mintsRefresh_iff.mpr fun _ => by decide))
  obtain ⟨refresh, hderived, hsealed⟩ := hmints.refresh refreshToken hrefreshToken
  have hrefresh : offlineCode.refreshToken sampleConfig.lifetimes.refreshToken sampleClock
      sampleDraw.refreshId = .ok refresh :=
    Outcome.map_eq_ok_iff.mpr ⟨_, hderived, rfl⟩
  obtain rfl := Except.ok.inj (refreshToken_offline.symm.trans hrefresh)
  exact ⟨token, set, refreshToken, hissue, hexchange, hrefreshToken,
    Codec.carriesWithin_of_derive Codec.sampleCodec_faithful offlineCode_readable (.refl _)
      hderived hsealed⟩

/-- Fixed values for an access token that is minted later. -/
def renewalDraw : Draw :=
  ⟨⟨"access-2"⟩, ⟨"refresh-2"⟩, Codec.sampleNonce, Codec.sampleNonce⟩

/-- The refresh token of the code for offline access can be renewed for a part of its scope as long as
it has not expired, if the cipher takes the access token. -/
theorem renewable_offline {caches : Caches} {now : Instant} (hcaches : caches.revocation = {})
    (hnow : now < offlineRefresh.common.expiresAt)
    (hfits : ((offlineRefresh.accessToken (some (Scope.ofText "openid email"))
      sampleConfig.lifetimes.accessToken now renewalDraw.accessId).map fun access =>
        fitsCipher (.access access)).toOption = some true) :
    offlineRefresh.Renewable sampleConfig Codec.sampleCodec caches now renewalDraw
      (some (Scope.ofText "openid email")) where
  unexpired := hnow
  unrevoked := by rw [hcaches]; rfl
  inTime := by
    have hlast : offlineRefresh.common.expiresAt.nanos +
        sampleConfig.lifetimes.accessToken.nanos ≤ Time.lastNanos := by decide
    have hnanos := Instant.lt_def.mp hnow
    omega
  overlaps h := by revert h; decide
  sealed access haccess := by
    rw [haccess] at hfits
    exact exists_issue_of_fitsCipher _ (Option.some.inj hfits)

/-- The sample client redeems the code for offline access, and then the refresh token for a part of
the scope: what it requests beyond the grant it does not get. -/
theorem flow_completes_sample :
    ∃ token set refreshToken renewed,
      sampleService.issueCode Codec.sampleNonce offlineCode = .ok token ∧
      sampleService.exchange sampleClock sampleClock.reading sampleDraw (sampleRequest token) {} =
        (Caches.used {} offlineCode, .ok set) ∧
      set.Serves sampleConfig Codec.sampleCodec offlineCode.common offlineCode.common.scope
        sampleClock ∧
      set.refreshToken = some refreshToken ∧
      sampleService.refresh laterSampleClock laterSampleClock.reading renewalDraw
        ⟨refreshToken, "client", some (Scope.ofText "openid email")⟩
        (Caches.used {} offlineCode) = (Caches.used {} offlineCode, .ok renewed) ∧
      renewed.Serves sampleConfig Codec.sampleCodec offlineCode.common (Scope.ofText "openid")
        laterSampleClock := by
  obtain ⟨token, hissue⟩ := exists_issueCode_offline
  obtain ⟨set, hexchange, hserves, hrefreshes, hrenews⟩ :=
    @flow_completes sampleConfig Codec.sampleCodec rfl Codec.sampleCodec_faithful offlineCode
      offlineCode_built Codec.sampleCode_integral (by decide +kernel) Codec.sampleNonce
      (sampleRequest token) hissue (fulfils_offline token) sampleClock (by decide) {} rfl
      (by decide) sampleDraw sealsMinted_offline
  obtain ⟨refreshToken, hrefreshToken⟩ :=
    Option.isSome_iff_exists.mp (hrefreshes.mpr fun _ => by decide)
  obtain ⟨refresh, hrefresh, -, -, -, -, hrenewed⟩ := hrenews refreshToken hrefreshToken
  obtain rfl := Except.ok.inj (refreshToken_offline.symm.trans hrefresh)
  obtain ⟨renewed, hset, -, hrenewedServes⟩ := hrenewed laterSampleClock renewalDraw
    (some (Scope.ofText "openid email")) (Caches.used {} offlineCode)
    (renewable_offline rfl (by decide) (by decide +kernel))
  have hscope : offlineRefresh.effectiveScope (some (Scope.ofText "openid email")) =
      Scope.ofText "openid" := by
    decide
  rw [hscope] at hrenewedServes
  exact ⟨token, set, refreshToken, renewed, hissue, hexchange, hserves, hrefreshToken, hset,
    hrenewedServes⟩

end Service

end OpaqueTokens
