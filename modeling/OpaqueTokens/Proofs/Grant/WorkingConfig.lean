import OpaqueTokens.Proofs.Claims.Reduction
import OpaqueTokens.Proofs.Config
import OpaqueTokens.Proofs.Grant.CodeLifetime
import OpaqueTokens.Proofs.Grant.Completeness
import OpaqueTokens.Proofs.Grant.Sets

/-!
# An accepted configuration works

With an accepted configuration nothing but the end of the calendar keeps a grant that passed all
checks from leading to tokens: minting fails just when the lifetime of a token to be minted leads
past the last second, unless a token is too long for the cipher. The seconds that a client is told
are those of the configured lifetime, and a refresh token does not expire before the access token
that is minted with it. The sealer of the configuration can be made with every key, since it asks
of the key identifier what the configuration asks of it.
-/

namespace OpaqueTokens

open Crypto (Gcm.aead)
open Requirement (Decides)
open Time (Instant Reading Span)

namespace Config

variable {config : Config}

/-- A configured lifetime can be minted just when its whole seconds, counted from the whole second
of issuance, do not lead past the last second. -/
theorem mintableAt_iff (h : config.validate = .ok ()) {name : String} {lifetime : Span}
    (hlifetime : (name, lifetime) ∈ config.namedLifetimes) {now : Instant} :
    lifetime.MintableAt now ↔ now.seconds + lifetime.seconds ≤ Time.lastSecond := by
  have hlong := one_second_le h hlifetime
  rw [Time.Span.MintableAt, Instant.floor_nanos, Span.seconds, Time.lastSecond, Time.lastNanos]
  omega

/-- The configuration with another key identifier. -/
def withKeyId (config : Config) (id : String) : Config :=
  { config with sealer := { config.sealer with keyId := id } }

/-- An accepted configuration may name exactly the key identifiers that a ring accepts. -/
theorem validate_withKeyId_iff (h : config.validate = .ok ()) {id : String} :
    (config.withKeyId id).validate = .ok () ↔ Keyring.checkId id = .ok () := by
  have hsound := validate_eq_ok_iff_sound.mp h
  rw [validate_eq_ok_iff_sound]
  exact ⟨fun hid => hid.keyId, fun hid =>
    ⟨hsound.issuer, hsound.one_second_le, hsound.access_le_refresh, hid⟩⟩

/-- The ring of an accepted configuration is made with every key. -/
theorem ofSettings_of_parse (h : config.validate = .ok ()) {environment : Environment}
    {text : String} (htext : environment config.sealer.keyEnv = some (Text.utf8 text))
    {key : SealerKey} (hkey : SealerKey.parse text = .ok key) :
    ∃ ring, Keyring.ofSettings environment config.sealer = .ok ring ∧
      Keyring.new config.sealer.keyId key = .ok ring := by
  have hid := (validate_eq_ok_iff_sound.mp h).keyId
  obtain ⟨ring, hring⟩ : ∃ ring, Keyring.new config.sealer.keyId key = .ok ring :=
    ⟨_, Keyring.new_eq_ok_iff.mpr ⟨hid, rfl⟩⟩
  refine ⟨ring, ?_, hring⟩
  have hread : SealerKey.ofEnvironment environment config.sealer.keyEnv = .ok key := by
    simp only [SealerKey.ofEnvironment, htext, Text.ofUtf8?_utf8, hkey]
  rw [Keyring.ofSettings, hread]
  exact hring

end Config

/-- An answer is limited by time: it is an internal error just when one of some lifetimes, counted
in whole seconds, leads past the last second, and there is no other error. -/
structure LimitedByTime (lifetimes : List Span) (now : Instant)
    (answer : Except GrantError TokenSet) : Prop where
  internal_iff : (∃ detail, answer = .error (.internal detail)) ↔
    ∃ lifetime ∈ lifetimes, Time.lastSecond < now.seconds + lifetime.seconds
  error_eq : ∀ error, answer = .error error → error = .ofClaims .invalidLifetime

/-- An answer is limited by time if requirements decide it of which only those for the time can be
unmet. -/
theorem limitedByTime_of_decides {requirements : List Requirement} {lifetimes : List Span}
    {now : Instant} {answer : Except GrantError TokenSet} (h : Decides requirements answer)
    (hrefusal : ∀ requirement ∈ requirements,
      requirement.met ∨ requirement.refusal = .ofClaims .invalidLifetime)
    (hunmet : (∃ requirement ∈ requirements, ¬requirement.met) ↔
      ∃ lifetime ∈ lifetimes, Time.lastSecond < now.seconds + lifetime.seconds) :
    LimitedByTime lifetimes now answer := by
  have herror (error : GrantError) (hanswer : answer = .error error) :
      (∃ requirement ∈ requirements, ¬requirement.met) ∧ error = .ofClaims .invalidLifetime := by
    obtain ⟨requirement, hmem, hnot, rfl⟩ := ((h.error_iff error).mp hanswer).exists_unmet
    exact ⟨⟨requirement, hmem, hnot⟩, (hrefusal requirement hmem).resolve_left hnot⟩
  refine ⟨?_, fun error hanswer => (herror error hanswer).2⟩
  rw [← hunmet]
  constructor
  · rintro ⟨detail, hanswer⟩
    exact (herror _ hanswer).1
  · rintro ⟨requirement, hmem, hnot⟩
    cases hanswer : answer with
    | ok set => exact absurd (h.ok_iff.mp ⟨set, hanswer⟩ requirement hmem) hnot
    | error error =>
      rw [(herror error hanswer).2]
      exact ⟨_, rfl⟩

namespace Service

variable {σ : Type} {service : Service σ} {ring : Keyring} {clock now : Instant} {draw : Draw}
  {state : σ}

/-- Claims are sealed just when the cipher takes them, whatever the stores. -/
theorem decides_sealClaims_of_ring (hring : ring.Reachable)
    (hcodec : service.codec = .ofRing Gcm.aead ring) (nonce : Nonce) (claims : TokenClaims) :
    Decides [⟨fitsCipher claims = true, sealingRefusal⟩] (service.sealClaims nonce claims) := by
  have hsame : service.sealClaims nonce claims =
      (ofRing service.config ring).sealClaims nonce claims := by
    rw [sealClaims, hcodec]
    rfl
  rw [hsame]
  exact decides_sealClaims service.config hring nonce claims

/-- A set is made just when the cipher takes its access token. -/
theorem decides_tokenSet (hring : ring.Reachable)
    (hcodec : service.codec = .ofRing Gcm.aead ring) (nonce : Nonce) (access : AccessClaims)
    (refreshToken : Option String) : Decides [⟨fitsCipher (.access access) = true, sealingRefusal⟩]
      (service.tokenSet nonce access refreshToken) :=
  (decides_sealClaims_of_ring hring hcodec nonce (.access access)).bind_ok fun _ _ => ⟨_, rfl⟩

/-- The end of the calendar decides whether claims can be derived for a configured lifetime. -/
theorem decides_derive_of_config {config : Config} (hconfig : config.validate = .ok ())
    {name : String} {lifetime : Span} (hlifetime : (name, lifetime) ∈ config.namedLifetimes)
    {claims : Claims} (hclaims : claims.WellFormed) (fresh : TokenId) {α : Type} (f : Claims → α) :
    Decides [⟨now.seconds + lifetime.seconds ≤ Time.lastSecond, .ofClaims .invalidLifetime⟩]
      (((claims.derive lifetime now fresh).map f).mapError .ofClaims) := by
  rw [← Config.mintableAt_iff hconfig hlifetime]
  exact decides_derive hclaims lifetime now fresh f

/-- What minting the tokens of a code asks, in the order in which it is looked at: that no lifetime
leads past the last second, and that the cipher takes the tokens. -/
def mintRequirements (service : Service σ) (now : Instant) (draw : Draw) (code : CodeClaims) :
    List Requirement :=
  let lifetimes := service.config.lifetimes
  [⟨now.seconds + lifetimes.accessToken.seconds ≤ Time.lastSecond, .ofClaims .invalidLifetime⟩,
   ⟨service.mintsRefresh code = true →
      now.seconds + lifetimes.refreshToken.seconds ≤ Time.lastSecond, .ofClaims .invalidLifetime⟩,
   ⟨service.mintsRefresh code = true → ∀ refresh,
      code.refreshToken lifetimes.refreshToken now draw.refreshId = .ok refresh →
        fitsCipher (.refresh refresh) = true, sealingRefusal⟩,
   ⟨∀ access, code.accessToken lifetimes.accessToken now draw.accessId = .ok access →
      fitsCipher (.access access) = true, sealingRefusal⟩]

/-- What a refresh asks, in the same order. -/
def renewRequirements (service : Service σ) (now : Instant) (draw : Draw)
    (requested : Option Scope) (refresh : RefreshClaims) : List Requirement :=
  let lifetime := service.config.lifetimes.accessToken
  [⟨now.seconds + lifetime.seconds ≤ Time.lastSecond, .ofClaims .invalidLifetime⟩,
   ⟨∀ access, refresh.accessToken requested lifetime now draw.accessId = .ok access →
      fitsCipher (.access access) = true, sealingRefusal⟩]

/-- The lifetimes of the tokens that are minted for a code. -/
def mintedLifetimes (service : Service σ) (code : CodeClaims) : List Span :=
  let lifetimes := service.config.lifetimes
  lifetimes.accessToken ::
    if service.mintsRefresh code then [lifetimes.refreshToken] else []

/-- The cipher takes the tokens that are minted for a code. -/
structure FitsMinted (service : Service σ) (now : Instant) (draw : Draw) (code : CodeClaims) :
    Prop where
  refresh : service.mintsRefresh code = true → ∀ refresh,
    code.refreshToken service.config.lifetimes.refreshToken now draw.refreshId = .ok refresh →
      fitsCipher (.refresh refresh) = true
  access : ∀ access,
    code.accessToken service.config.lifetimes.accessToken now draw.accessId = .ok access →
      fitsCipher (.access access) = true

/-- The cipher takes the tokens if their sealed forms are no longer than it allows. -/
theorem MintsWithin.fitsMinted {service : Service σ} {now : Instant} {draw : Draw}
    {code : CodeClaims} (h : service.MintsWithin Crypto.Gcm.maxTextLength now draw code) :
    service.FitsMinted now draw code where
  refresh _ refresh hrefresh := decide_eq_true (h.refresh refresh hrefresh)
  access access haccess := decide_eq_true (h.access access haccess)

/-- The cipher takes the token that a refresh leads to. -/
def FitsRenewed (service : Service σ) (now : Instant) (draw : Draw) (requested : Option Scope)
    (refresh : RefreshClaims) : Prop :=
  ∀ access, refresh.accessToken requested service.config.lifetimes.accessToken now draw.accessId =
    .ok access → fitsCipher (.access access) = true

section Minting

variable (hconfig : service.config.validate = .ok ()) (hring : ring.Reachable)
  (hcodec : service.codec = .ofRing Gcm.aead ring)

include hconfig hring hcodec

/-- A refresh token is minted just when its lifetime ends in time and the cipher takes it. -/
theorem decides_refreshToken {code : CodeClaims} (hcode : code.common.WellFormed) :
    Decides
      [⟨now.seconds + service.config.lifetimes.refreshToken.seconds ≤ Time.lastSecond,
        .ofClaims .invalidLifetime⟩,
       ⟨∀ refresh, code.refreshToken service.config.lifetimes.refreshToken now draw.refreshId =
          .ok refresh → fitsCipher (.refresh refresh) = true, sealingRefusal⟩]
      (((code.refreshToken service.config.lifetimes.refreshToken now draw.refreshId).mapError
        .ofClaims).bind fun refresh =>
          (service.sealClaims draw.refreshNonce (.refresh refresh)).map some) := by
  refine (decides_derive_of_config hconfig (.tail _ (.tail _ (.head _))) hcode _ _).bind
    fun refresh hrefresh => ?_
  have hrefresh : code.refreshToken service.config.lifetimes.refreshToken now draw.refreshId =
    .ok refresh := Outcome.mapError_eq_ok_iff.mp hrefresh
  -- The size is asked of whatever claims are derived, and these are the only ones.
  simp only [hrefresh, Except.ok.injEq, forall_eq', Requirement.decides_map_iff]
  exact decides_sealClaims_of_ring hring hcodec _ _

/-- What minting asks decides whether the tokens of a code are minted. -/
theorem decides_mint_of_config {code : CodeClaims} (hcode : code.common.WellFormed) :
    Decides (service.mintRequirements now draw code) (service.mint now draw code) := by
  rw [mint_eq]
  refine (decides_derive_of_config hconfig (.tail _ (.head _)) hcode _ _).bind
    fun access haccess => ?_
  have haccess : code.accessToken service.config.lifetimes.accessToken now draw.accessId =
    .ok access := Outcome.mapError_eq_ok_iff.mp haccess
  simp only [haccess, Except.ok.injEq, forall_eq']
  exact (Decides.when (fun _ => decides_refreshToken hconfig hring hcodec hcode) none).bind
    fun refreshToken _ => decides_tokenSet hring hcodec _ access refreshToken

/-- Redeeming a code with its address asks for the verifier, and then for what minting asks. -/
theorem decides_redeem_of_config {code : CodeClaims} (hcode : code.common.WellFormed)
    {request : CodeExchange}
    (hredirect : ∀ uri, code.common.redirectUri = some uri → request.redirectUri = some uri) :
    Decides
      (⟨service.config.pkce.verify code.codeChallenge request.codeVerifier = .ok (),
        pkceRefusal (service.config.pkce.verify code.codeChallenge request.codeVerifier)⟩ ::
        service.mintRequirements now draw code)
      (service.redeem now draw request (.code code)) := by
  have hverify : service.config.pkce.verifyGrant (.code code) request.codeVerifier =
    service.config.pkce.verify code.codeChallenge request.codeVerifier := rfl
  rw [redeem, ValidatedGrant.common, if_pos (redirectMatches_iff.mpr hredirect), hverify]
  cases service.config.pkce.verify code.codeChallenge request.codeVerifier with
  | error error => exact Requirement.decides_cons_unmet (by simp)
  | ok =>
    have hmint : Decides (service.mintRequirements now draw code) (service.mint now draw code) :=
      decides_mint_of_config hconfig hring hcodec hcode
    exact hmint.cons_met rfl

/-- What a refresh asks decides whether it leads to a token, if it does not miss the grant. -/
theorem decides_renew {refresh : RefreshClaims} (hrefresh : refresh.common.WellFormed)
    {request : RefreshExchange} (hmissed : ¬refresh.MissedBy request.scope) :
    Decides (service.renewRequirements now draw request.scope refresh)
      (service.renew now draw request (.refresh refresh)) := by
  have haccess : Decides [⟨now.seconds + service.config.lifetimes.accessToken.seconds ≤
      Time.lastSecond, .ofClaims .invalidLifetime⟩]
      (refresh.accessToken request.scope service.config.lifetimes.accessToken now
        draw.accessId) := by
    rw [RefreshClaims.accessToken_of_not_missedBy hmissed]
    exact decides_derive_of_config hconfig (.tail _ (.head _)) (hrefresh.narrowed _) _ _
  refine haccess.bind fun access haccess => ?_
  simp only [haccess, Except.ok.injEq, forall_eq']
  exact decides_tokenSet hring hcodec _ access none

end Minting

/-- Where the lifetimes end in time, all that is left to ask is that the cipher takes the tokens. -/
theorem mintRequirements_met_iff {code : CodeClaims}
    (hlifetimes : ∀ lifetime ∈ service.mintedLifetimes code,
      now.seconds + lifetime.seconds ≤ Time.lastSecond) :
    (∀ requirement ∈ service.mintRequirements now draw code, requirement.met) ↔
      service.FitsMinted now draw code := by
  simp only [mintRequirements, List.forall_mem_cons]
  constructor
  · rintro ⟨-, -, hrefresh, haccess, -⟩
    exact ⟨hrefresh, haccess⟩
  · intro hfits
    refine ⟨hlifetimes _ List.mem_cons_self, fun hmints => hlifetimes _ ?_, hfits.refresh,
      hfits.access, List.forall_mem_nil _⟩
    simp [mintedLifetimes, hmints]

/-- With tokens that the cipher takes minting is limited by time only. -/
theorem limitedByTime_mint {code : CodeClaims} {answer : Except GrantError TokenSet}
    (h : Decides (service.mintRequirements now draw code) answer)
    (hfits : service.FitsMinted now draw code) :
    LimitedByTime (service.mintedLifetimes code) now answer := by
  refine limitedByTime_of_decides h ?_ ⟨?_, ?_⟩
  · intro requirement hmem
    simp only [mintRequirements, List.mem_cons, List.not_mem_nil, or_false] at hmem
    rcases hmem with rfl | rfl | rfl | rfl
    exacts [.inr rfl, .inr rfl, .inl hfits.refresh, .inl hfits.access]
  · rintro ⟨requirement, hmem, hnot⟩
    simp only [mintRequirements, List.mem_cons, List.not_mem_nil, or_false] at hmem
    rcases hmem with rfl | rfl | rfl | rfl
    · exact ⟨_, List.mem_cons_self, Int.not_le.mp hnot⟩
    · obtain ⟨hmints, hlate⟩ := Classical.not_imp.mp hnot
      exact ⟨_, by simp [mintedLifetimes, hmints], Int.not_le.mp hlate⟩
    · exact absurd hfits.refresh hnot
    · exact absurd hfits.access hnot
  · rintro ⟨lifetime, hmem, hlate⟩
    rcases List.mem_cons.mp hmem with rfl | hmem
    · exact ⟨_, List.mem_cons_self, Int.not_le.mpr hlate⟩
    · split at hmem
      · rename_i hmints
        obtain rfl := List.mem_singleton.mp hmem
        exact ⟨_, .tail _ (.head _), fun hmet => Int.not_le.mpr hlate (hmet hmints)⟩
      · cases hmem

/-- With a token that the cipher takes a refresh is limited by time only. -/
theorem limitedByTime_renew {requested : Option Scope} {refresh : RefreshClaims}
    {answer : Except GrantError TokenSet}
    (h : Decides (service.renewRequirements now draw requested refresh) answer)
    (hfits : service.FitsRenewed now draw requested refresh) :
    LimitedByTime [service.config.lifetimes.accessToken] now answer := by
  refine limitedByTime_of_decides h ?_ ⟨?_, ?_⟩
  · intro requirement hmem
    simp only [renewRequirements, List.mem_cons, List.not_mem_nil, or_false] at hmem
    rcases hmem with rfl | rfl
    exacts [.inr rfl, .inl hfits]
  · rintro ⟨requirement, hmem, hnot⟩
    simp only [renewRequirements, List.mem_cons, List.not_mem_nil, or_false] at hmem
    rcases hmem with rfl | rfl
    · exact ⟨_, List.mem_cons_self, Int.not_le.mp hnot⟩
    · exact absurd hfits hnot
  · rintro ⟨lifetime, hmem, hlate⟩
    obtain rfl := List.mem_singleton.mp hmem
    exact ⟨_, List.mem_cons_self, Int.not_le.mpr hlate⟩

/-- The seconds that a set tells are those of the configured lifetime, of which there is one at
least. -/
theorem expiresIn_of_derive (hconfig : service.config.validate = .ok ()) {claims : Claims}
    {set : TokenSet} {nonce : Nonce}
    (hderived : claims.derive service.config.lifetimes.accessToken now draw.accessId =
      .ok set.claims.common) (hmade : set.MadeAround service.codec nonce) :
    set.expiresIn = service.config.lifetimes.accessToken.seconds ∧ 1 ≤ set.expiresIn := by
  have hexpiresIn : set.expiresIn = service.config.lifetimes.accessToken.seconds :=
    hmade.expiresIn.trans (Claims.seconds_of_derive hderived).2
  have hlong := Config.one_second_le hconfig (.tail _ (.head _) :
    ("access_token", service.config.lifetimes.accessToken) ∈ service.config.namedLifetimes)
  rw [hexpiresIn, Span.seconds]
  omega

/-- A refresh token that is minted with a set does not expire before the access token of the set,
whatever it is read as. -/
theorem Mints.expiresAt_le (hconfig : service.config.validate = .ok ()) (hring : ring.Reachable)
    (hcodec : service.codec = .ofRing Gcm.aead ring) {code : CodeClaims} {set : TokenSet}
    (h : service.Mints now draw code set) : ∀ token ∈ set.refreshToken,
      ∃ refresh : RefreshClaims,
        service.codec.issue draw.refreshNonce (.refresh refresh) = .ok token ∧
        set.claims.common.expiresAt ≤ refresh.common.expiresAt ∧
        ∀ read, service.codec.Reads token read →
          set.claims.common.expiresAt ≤ read.common.expiresAt := by
  intro token htoken
  obtain ⟨refresh, hderived, hissue⟩ := h.refresh token htoken
  have hle := Claims.expiresAt_le_of_derive (Config.accessToken_le_refreshToken hconfig)
    h.derived hderived
  refine ⟨refresh, hissue, Int.le_trans hle refresh.common.expiresAt.floor_le,
    fun read hread => ?_⟩
  rw [hcodec] at hissue hread
  obtain ⟨-, delivery, hcommon⟩ := hread.of_issue hring hissue
  rw [hcommon]
  exact hle

end Service

/-- A request to redeem a code passes all checks: its code is accepted, and it repeats the address
and brings the verifier that the code asks for. -/
structure CodeExchange.Passes {σ : Type} (request : CodeExchange) (service : Service σ)
    (clock : Instant) (now : Reading) (state : σ) (code : CodeClaims) : Prop where
  accepted : (service.grantValidator.validate clock now request.code .authorizationCode
    request.clientId state).2 = .ok (.code code)
  redirect : ∀ uri, code.common.redirectUri = some uri → request.redirectUri = some uri
  verified : service.config.pkce.verify code.codeChallenge request.codeVerifier = .ok ()

/-- A request to redeem a refresh token passes all checks: the token is accepted, and the scope that
it asks for is not without overlap with the granted one. -/
structure RefreshExchange.Passes {σ : Type} (request : RefreshExchange) (service : Service σ)
    (clock : Instant) (now : Reading) (state : σ) (refresh : RefreshClaims) : Prop where
  accepted : (service.grantValidator.validate clock now request.refreshToken .refreshToken
    request.clientId state).2 = .ok (.refresh refresh)
  overlaps : ¬refresh.MissedBy request.scope

section Passing

variable {σ : Type} {service : Service σ} {clock : Instant} {now : Reading} {draw : Draw}
  {state : σ}

/-- What is left of an exchange that passes all checks is the minting. -/
theorem CodeExchange.Passes.exchange_eq {request : CodeExchange} {code : CodeClaims}
    (h : request.Passes service clock now state code) :
    (service.exchange clock now draw request state).2 =
      service.mint now.universal draw code := by
  have hanswer : (service.exchange clock now draw request state).2 =
      (service.grantValidator.validate clock now request.code .authorizationCode
        request.clientId state).2.bind (service.redeem now.universal draw request) := rfl
  have hverified : service.config.pkce.verifyGrant (.code code) request.codeVerifier = .ok () :=
    h.verified
  rw [hanswer, h.accepted, Outcome.bind_ok, Service.redeem, ValidatedGrant.common,
    if_pos (Service.redirectMatches_iff.mpr h.redirect), hverified]
  rfl

/-- The claims of a code that is accepted are well formed. -/
theorem CodeExchange.Passes.wellFormed {request : CodeExchange} {code : CodeClaims}
    (h : request.Passes service clock now state code) : code.common.WellFormed :=
  (Codec.built_of_parse (GrantValidator.parse_of_validate h.accepted)).wellFormed

/-- What is left of a refresh that passes all checks is the minting. -/
theorem RefreshExchange.Passes.refresh_eq {request : RefreshExchange} {refresh : RefreshClaims}
    (h : request.Passes service clock now state refresh) :
    (service.refresh clock now draw request state).2 =
      service.renew now.universal draw request (.refresh refresh) := by
  have hanswer : (service.refresh clock now draw request state).2 =
      (service.grantValidator.validate clock now request.refreshToken .refreshToken
        request.clientId state).2.bind (service.renew now.universal draw request) := rfl
  rw [hanswer, h.accepted, Outcome.bind_ok]

/-- The claims of a refresh token that is accepted are well formed. -/
theorem RefreshExchange.Passes.wellFormed {request : RefreshExchange} {refresh : RefreshClaims}
    (h : request.Passes service clock now state refresh) : refresh.common.WellFormed :=
  (Codec.built_of_parse (GrantValidator.parse_of_validate h.accepted)).wellFormed

end Passing

/-- With an accepted configuration and the sealer of a ring, a request that passes all checks is
answered for what minting asks and for nothing else: that no lifetime of a token to be minted leads
past the last second, and that the cipher takes the tokens. So with tokens that it takes the request
fails, and then with an internal error, just when such a lifetime leads past the last second. A
success tells the whole seconds of the lifetime of access tokens, of which there is one at least,
and its refresh token does not expire before its access token. The ring of the configuration is made
with every key that is found where the configuration says; the configuration may name exactly the
identifiers that a ring accepts, and the header of such an identifier counts its bytes. -/
theorem accepted_config_works {σ : Type} {service : Service σ}
    (hconfig : service.config.validate = .ok ()) :
    (∀ ring : Keyring, ring.Reachable → service.codec = .ofRing Gcm.aead ring →
      ∀ (clock : Instant) (now : Reading) (draw : Draw) (state : σ),
      (∀ (request : CodeExchange) (code : CodeClaims),
        request.Passes service clock now state code →
          Decides (service.mintRequirements now.universal draw code)
            (service.exchange clock now draw request state).2 ∧
          (service.FitsMinted now.universal draw code →
            LimitedByTime (service.mintedLifetimes code) now.universal
              (service.exchange clock now draw request state).2) ∧
          ∀ set, (service.exchange clock now draw request state).2 = .ok set →
            set.expiresIn = service.config.lifetimes.accessToken.seconds ∧ 1 ≤ set.expiresIn ∧
            set.refreshToken.isSome = service.mintsRefresh code ∧
            ∀ token ∈ set.refreshToken, ∃ refresh : RefreshClaims,
              service.codec.issue draw.refreshNonce (.refresh refresh) = .ok token ∧
              set.claims.common.expiresAt ≤ refresh.common.expiresAt ∧
              ∀ read, service.codec.Reads token read →
                set.claims.common.expiresAt ≤ read.common.expiresAt) ∧
      ∀ (request : RefreshExchange) (refresh : RefreshClaims),
        request.Passes service clock now state refresh →
          Decides (service.renewRequirements now.universal draw request.scope refresh)
            (service.refresh clock now draw request state).2 ∧
          (service.FitsRenewed now.universal draw request.scope refresh →
            LimitedByTime [service.config.lifetimes.accessToken] now.universal
              (service.refresh clock now draw request state).2) ∧
          ∀ set, (service.refresh clock now draw request state).2 = .ok set →
            set.expiresIn = service.config.lifetimes.accessToken.seconds ∧ 1 ≤ set.expiresIn ∧
            set.refreshToken = none) ∧
    (∀ (environment : Environment) (text : String) (key : SealerKey),
      environment service.config.sealer.keyEnv = some (Text.utf8 text) →
      SealerKey.parse text = .ok key →
        ∃ ring, Keyring.ofSettings environment service.config.sealer = .ok ring ∧
          Keyring.new service.config.sealer.keyId key = .ok ring) ∧
    (∀ id, (service.config.withKeyId id).validate = .ok () ↔ Keyring.checkId id = .ok ()) ∧
    ∀ id, Keyring.checkId id = .ok () →
      ∃ count, Envelope.header id = Envelope.version :: count :: Text.utf8 id ∧
        count.toNat = (Text.utf8 id).length := by
  refine ⟨fun ring hring hcodec clock now draw state =>
    ⟨fun request code hpasses => ?_, fun request refresh hpasses => ?_⟩, ?_, ?_, ?_⟩
  · rw [hpasses.exchange_eq]
    have hdecides : Decides (service.mintRequirements now.universal draw code) _ :=
      Service.decides_mint_of_config hconfig hring hcodec hpasses.wellFormed
    refine ⟨hdecides, Service.limitedByTime_mint hdecides, fun set hset => ?_⟩
    have hmints := Service.mints_of_mint hset
    obtain ⟨hexpiresIn, hone⟩ := Service.expiresIn_of_derive hconfig hmints.derived hmints.made
    exact ⟨hexpiresIn, hone, hmints.refresh_isSome, hmints.expiresAt_le hconfig hring hcodec⟩
  · rw [hpasses.refresh_eq]
    have hdecides :
        Decides (service.renewRequirements now.universal draw request.scope refresh) _ :=
      Service.decides_renew hconfig hring hcodec hpasses.wellFormed hpasses.overlaps
    refine ⟨hdecides, Service.limitedByTime_renew hdecides, fun set hset => ?_⟩
    have hrenews := Service.renews_of_renew hset
    obtain ⟨-, hderived⟩ := RefreshClaims.accessToken_eq_ok_iff.mp hrenews.derived
    obtain ⟨hexpiresIn, hone⟩ := Service.expiresIn_of_derive hconfig hderived hrenews.made
    exact ⟨hexpiresIn, hone, hrenews.refresh_eq_none⟩
  · exact fun environment text key htext hkey => Config.ofSettings_of_parse hconfig htext hkey
  · exact fun id => Config.validate_withKeyId_iff hconfig
  · exact fun id hid => (Keyring.checkId_eq_ok_iff_fitsHeader.mp hid).exists_header_eq

/-- A code for offline access that is valid until the last second. -/
def lastingCode : CodeClaims :=
  { Service.offlineCode with
    common := { Service.offlineCode.common with expiresAt := Instant.last.floor } }

/-- An hour before the last second: access tokens live for less than that, and refresh tokens for
more. -/
def lateClock : Instant := ⟨253402297199000000000, by decide, by decide⟩

/-- The cipher takes the tokens that are minted for the lasting code. -/
theorem fitsMinted_lasting : sampleService.FitsMinted sampleClock sampleDraw lastingCode :=
  (Service.mintsWithin_of_fitsCipher (by decide +kernel) (by decide +kernel)).fitsMinted

/-- The sample client's request passes all checks as long as the code is valid. -/
theorem passes_lasting {token : String}
    (h : Codec.sampleCodec.issue Codec.sampleNonce (.code lastingCode) = .ok token)
    {now : Instant} (hnow : now < lastingCode.common.expiresAt) :
    (sampleRequest token).Passes sampleService sampleClock now.reading {} lastingCode := by
  have hbuilt : lastingCode.common.Built := Claims.built_iff_wellFormed.mpr (by decide)
  have hparse : Codec.sampleCodec.parse sampleClock token .authorizationCode =
      .ok (.code lastingCode) :=
    Codec.parse_of_issue_of_wellFormed Crypto.Gcm.aead_seals Codec.sampleRing_reachable.sound h
      hbuilt.wellFormed Codec.sampleCode_integral (by decide +kernel) (by decide)
  refine ⟨?_, (Service.fulfils_offline token).redirect, (Service.fulfils_offline token).verify⟩
  have hclient : lastingCode.common.clientId.text = (sampleRequest token).clientId := rfl
  have hunexpired : ¬lastingCode.common.expiresAt ≤ now.reading.universal := Int.not_le.mpr hnow
  rw [sampleService, Service.ofRing, Service.grantValidator_inMemory,
    GrantValidator.validate_of_parse _ _ _ _ _ _ hparse, GrantValidator.validateClaims_code,
    if_neg (not_not_intro hclient), if_neg hunexpired, if_neg (by decide)]

/-- The sample configuration works: a code is exchanged for tokens in 1970, and an hour before the
last second it is not, since a refresh token would live too long. The ring of the configuration is
made of the text of a key. -/
theorem accepted_config_works_sample :
    sampleConfig.validate = .ok () ∧
    (∃ token, Codec.sampleCodec.issue Codec.sampleNonce (.code lastingCode) = .ok token ∧
      (∃ set, (sampleService.exchange sampleClock sampleClock.reading sampleDraw
        (sampleRequest token) {}).2 = .ok set ∧ set.expiresIn = 600) ∧
      ∃ detail, (sampleService.exchange sampleClock lateClock.reading sampleDraw
        (sampleRequest token) {}).2 = .error (.internal detail)) ∧
    ∃ ring, Keyring.ofSettings (fun _ => some (Text.utf8 Codec.sampleKey.toHex))
      sampleConfig.sealer = .ok ring := by
  have hconfig : sampleService.config.validate = .ok () := rfl
  obtain ⟨hanswers, hring, -, -⟩ := accepted_config_works hconfig
  obtain ⟨token, hissue⟩ : ∃ token,
      Codec.sampleCodec.issue Codec.sampleNonce (.code lastingCode) = .ok token :=
    exists_issue_of_fitsCipher Codec.sampleNonce (by decide +kernel)
  refine ⟨hconfig, ⟨token, hissue, ?_, ?_⟩, ?_⟩
  · obtain ⟨hexchange, -⟩ := hanswers Codec.sampleRing Codec.sampleRing_reachable rfl sampleClock
      sampleClock.reading sampleDraw {}
    obtain ⟨hdecides, -, hsets⟩ := hexchange _ _ (passes_lasting hissue (by decide))
    have hmet : ∀ requirement ∈ sampleService.mintRequirements sampleClock sampleDraw lastingCode,
        requirement.met := by
      simp only [Service.mintRequirements, List.forall_mem_cons]
      exact ⟨by decide, fun _ => by decide, fitsMinted_lasting.refresh, fitsMinted_lasting.access,
        nofun⟩
    obtain ⟨set, hset⟩ := hdecides.ok_iff.mpr hmet
    exact ⟨set, hset, (hsets set hset).1⟩
  · obtain ⟨hexchange, -⟩ := hanswers Codec.sampleRing Codec.sampleRing_reachable rfl sampleClock
      lateClock.reading sampleDraw {}
    obtain ⟨hdecides, -⟩ := hexchange _ _ (passes_lasting hissue (by decide))
    have hunmet : ¬(sampleService.mintsRefresh lastingCode = true →
        lateClock.seconds + sampleConfig.lifetimes.refreshToken.seconds ≤ Time.lastSecond) := by
      decide
    have hmet : lateClock.seconds + sampleConfig.lifetimes.accessToken.seconds ≤
      Time.lastSecond := by decide
    exact ⟨_, (hdecides.error_iff _).mpr (.later hmet (.here hunmet))⟩
  · obtain ⟨ring, hmade, -⟩ := hring (fun _ => some (Text.utf8 Codec.sampleKey.toHex))
      Codec.sampleKey.toHex Codec.sampleKey rfl (by decide +kernel)
    exact ⟨ring, hmade⟩

end OpaqueTokens
