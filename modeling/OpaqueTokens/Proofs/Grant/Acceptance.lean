import OpaqueTokens.Proofs.Codec
import OpaqueTokens.Proofs.Grant.Exchange

/-!
# Exact acceptance

The three endpoints accept exactly what their requirements describe, in every state of the caches
and at every time, and every refusal names the first requirement that is not met. The exchange of a
code needs one thing more, which is that the tokens that it mints are not too long for the cipher.
-/

namespace OpaqueTokens

open Crypto (Gcm.aead Gcm.maxTextLength)
open Requirement
open Time (Instant Reading Span)

/-- Grants, access tokens and codes are accepted just when they meet what is asked of them, for the
claims that they were parsed as, and refused for the first requirement that they do not meet. What
is sealed and what the caches hold go by the clock, the expiry of the claims by the time that the
caller names. -/
theorem exact_acceptance (config : Config) (clock : Instant) (caches : Caches) :
    (∀ (codec : Codec) (replayRevocation : Option Span) (now : Reading) (token : String)
        (kind : GrantKind) (client : String),
      Decides (codec.requirements clock token kind.tokenType
          (grantRequirements caches clock now.universal client))
        ((GrantValidator.inMemory codec replayRevocation).validate clock now token kind client
          caches).2 ∧
      ∀ grant, ((GrantValidator.inMemory codec replayRevocation).validate clock now token kind
          client caches).2 = .ok grant →
        codec.parse clock token kind.tokenType = .ok grant.claims) ∧
    (∀ (codec : Codec) (now : Instant) (token : String),
      Decides (codec.requirements clock token .accessToken (accessRequirements caches clock now))
        ((AccessValidator.inMemory codec).validate clock now token caches) ∧
      ∀ access, (AccessValidator.inMemory codec).validate clock now token caches = .ok access →
        codec.parse clock token .accessToken = .ok (.access access)) ∧
    ∀ (ring : Keyring) (now : Reading) (draw : Draw) (request : CodeExchange), ring.Reachable →
      (∀ code, (Codec.ofRing Gcm.aead ring).parseCode clock request.code = .ok code →
        (Service.ofRing config ring).MintsWithin Gcm.maxTextLength now.universal draw code) →
      Decides ((Codec.ofRing Gcm.aead ring).requirements clock request.code .authorizationCode
          (exchangeRequirements config caches clock now.universal request))
        ((Service.ofRing config ring).exchange clock now draw request caches).2 := by
  refine ⟨fun codec replayRevocation now token kind client => ⟨?_, fun grant hgrant => ?_⟩,
    fun codec now token => ⟨?_, fun access haccess => ?_⟩, ?_⟩
  · exact GrantValidator.decides_validate codec replayRevocation clock now token kind client caches
  · exact GrantValidator.claims_of_validate hgrant
  · exact AccessValidator.decides_validate codec clock now token caches
  · exact AccessValidator.claims_of_validate haccess
  · intro ring now draw request hring hmints
    exact @Service.decides_exchange config (Codec.ofRing Gcm.aead ring) clock now draw request
      caches fun code hcode => (hmints code hcode).sealsMinted hring

/-- A configuration that accepts challenges which show their verifier. -/
def sampleConfig : Config :=
  { issuer := "https://issuer.example", pkce := { allowPlain := true } }

/-- A service with the sample ring. -/
def sampleService : Service Caches :=
  .ofRing sampleConfig Codec.sampleRing

/-- Fixed identifiers and nonces for minted tokens. -/
def sampleDraw : Draw :=
  ⟨⟨"access-1"⟩, ⟨"refresh-1"⟩, Codec.sampleNonce, Codec.sampleNonce⟩

/-- When the sample code was issued. -/
def sampleClock : Instant := Codec.sampleCode.common.issuedAt

/-- A request that redeems a token as the sample client does. -/
def sampleRequest (token : String) : CodeExchange where
  code := token
  clientId := "client"
  redirectUri := some "app://callback"
  codeVerifier := some "verifier"

/-- Whether the cipher takes the sealed form of claims. -/
def fitsCipher (claims : TokenClaims) : Bool :=
  (Envelope.content claims.common.expiresAt.seconds (Wire.encode claims)).length ≤
    Gcm.maxTextLength

/-- The sample ring seals whatever the cipher takes. -/
theorem exists_issue_of_fitsCipher (nonce : Nonce) {claims : TokenClaims}
    (h : fitsCipher claims = true) : ∃ token, Codec.sampleCodec.issue nonce claims = .ok token :=
  Codec.exists_issue Crypto.Gcm.aead_seals Codec.sampleRing_reachable.sound nonce claims
    (of_decide_eq_true h)

/-- The cipher takes whatever redeeming a code mints if it takes what the lifetimes lead to. -/
theorem Service.mintsWithin_of_fitsCipher {config : Config} {ring : Keyring} {now : Instant}
    {draw : Draw} {code : CodeClaims}
    (haccess : ((code.accessToken config.lifetimes.accessToken now draw.accessId).map
      fun access => fitsCipher (.access access)).toOption = some true)
    (hrefresh : ((code.refreshToken config.lifetimes.refreshToken now draw.refreshId).map
      fun refresh => fitsCipher (.refresh refresh)).toOption = some true) :
    (Service.ofRing config ring).MintsWithin Gcm.maxTextLength now draw code where
  access access hderived := by
    have hderived : code.accessToken config.lifetimes.accessToken now draw.accessId =
      .ok access := hderived
    rw [hderived] at haccess
    exact of_decide_eq_true (Option.some.inj haccess)
  refresh refresh hderived := by
    have hderived : code.refreshToken config.lifetimes.refreshToken now draw.refreshId =
      .ok refresh := hderived
    rw [hderived] at hrefresh
    exact of_decide_eq_true (Option.some.inj hrefresh)

/-- The cipher takes the tokens that redeeming the sample code mints. -/
theorem mintsWithin_sample :
    sampleService.MintsWithin Gcm.maxTextLength sampleClock sampleDraw Codec.sampleCode :=
  Service.mintsWithin_of_fitsCipher (by decide +kernel) (by decide +kernel)

/-- The token of the sample code is parsed as the code before its expiry. -/
theorem Codec.parseCode_sample {token : String}
    (h : Codec.sampleCodec.issue Codec.sampleNonce (.code Codec.sampleCode) = .ok token)
    {clock : Instant} (hclock : clock.seconds < Codec.sampleCode.common.expiresAt.seconds) :
    Codec.sampleCodec.parseCode clock token = .ok Codec.sampleCode :=
  Codec.parseCode_eq_ok_iff.mpr (Codec.parse_sample h hclock)

/-- The cipher takes whatever redeeming the token of the sample code mints. -/
theorem mintsWithin_of_issue_sample {token : String}
    (h : Codec.sampleCodec.issue Codec.sampleNonce (.code Codec.sampleCode) = .ok token) :
    ∀ code, Codec.sampleCodec.parseCode sampleClock (sampleRequest token).code = .ok code →
      sampleService.MintsWithin Gcm.maxTextLength sampleClock sampleDraw code := by
  intro code hcode
  have hsame := Codec.parseCode_sample h (by decide : sampleClock.seconds < _)
  obtain rfl := Except.ok.inj (hcode.symm.trans hsame)
  exact mintsWithin_sample

/-- The sample client's request meets all that redeeming the sample code asks, at a time from which
an access token can live for as long as configured. -/
theorem redemption_met_sample (token : String) {now : Instant}
    (hlifetime : sampleConfig.lifetimes.accessToken.MintableAt now) :
    ∀ requirement ∈ redemptionRequirements sampleConfig now (sampleRequest token)
        (.code Codec.sampleCode), requirement.met := by
  simp only [redemptionRequirements, List.forall_mem_cons, List.not_mem_nil, false_imp_iff,
    implies_true]
  exact ⟨fun uri huri => huri, rfl, hlifetime, fun hoffline => absurd (hoffline rfl) (by decide),
    trivial⟩

/-- The sample client presents the sample code before it expires, with any address. -/
theorem presents_sample {token : String}
    (h : Codec.sampleCodec.issue Codec.sampleNonce (.code Codec.sampleCode) = .ok token)
    {clock now : Instant} (hclock : clock.seconds < Codec.sampleCode.common.expiresAt.seconds)
    (hnow : now < Codec.sampleCode.common.expiresAt) (redirectUri : Option String) :
    CodeExchange.Presents { sampleRequest token with redirectUri } Codec.sampleCodec clock now
      Codec.sampleCode where
  reads := Codec.parseCode_sample h hclock
  client := rfl
  unexpired := hnow

/-- The sample client redeems the sample code for a set, if the token is unsealed in time, the time
that is named lies before the expiry, and the code is not marked when the store is asked. -/
theorem exists_set_sample {token : String}
    (h : Codec.sampleCodec.issue Codec.sampleNonce (.code Codec.sampleCode) = .ok token)
    {caches : Caches} {moments : Moments} {now : Instant}
    (hunsealing : moments.unsealing.seconds < Codec.sampleCode.common.expiresAt.seconds)
    (hnow : now < Codec.sampleCode.common.expiresAt)
    (hunmarked : caches.replay.isMarked Codec.sampleCode.common.id moments.lookup = false)
    (hlifetime : sampleConfig.lifetimes.accessToken.MintableAt now)
    (hmints : sampleService.MintsWithin Gcm.maxTextLength now sampleDraw Codec.sampleCode) :
    ∃ set, sampleService.exchange moments now.reading sampleDraw (sampleRequest token) caches =
      (caches.used Codec.sampleCode, .ok set) := by
  have hpresents := presents_sample h hunsealing hnow (sampleRequest token).redirectUri
  obtain ⟨set, hset⟩ := (Service.decides_redeem Codec.sampleCode_built.wellFormed
    (hmints.sealsMinted Codec.sampleRing_reachable)).ok_iff.mpr
      (redemption_met_sample token hlifetime)
  exact ⟨set, (Service.exchange_of_unmarked hpresents hunmarked).trans (congrArg _ hset)⟩

/-- The sample client's request meets all that is asked of it. -/
theorem requirements_met_sample {token : String}
    (h : Codec.sampleCodec.issue Codec.sampleNonce (.code Codec.sampleCode) = .ok token) :
    ∀ requirement ∈ Codec.sampleCodec.requirements sampleClock token .authorizationCode
        (exchangeRequirements sampleConfig {} sampleClock sampleClock (sampleRequest token)),
      requirement.met := by
  refine Codec.requirements_met (Codec.parse_sample h (by decide)) ?_
  refine List.forall_mem_append.mpr ⟨?_, redemption_met_sample token (by decide)⟩
  simp only [grantRequirements, List.forall_mem_cons, List.not_mem_nil, false_imp_iff,
    implies_true]
  exact ⟨rfl, by decide, fun _ => ReplayCache.isMarked_eq_false_iff.mp rfl,
    fun _ => RevocationCache.isRevoked_eq_false_iff.mp rfl, trivial⟩

/-- The sample code is exchanged for the sample client. -/
theorem exact_acceptance_sample :
    ∃ token set, Codec.sampleCodec.issue Codec.sampleNonce (.code Codec.sampleCode) = .ok token ∧
      (sampleService.exchange sampleClock sampleClock.reading sampleDraw (sampleRequest token)
        {}).2 = .ok set := by
  obtain ⟨token, hissue⟩ := Codec.exists_issue_sample
  obtain ⟨-, -, hexchange⟩ := exact_acceptance sampleConfig sampleClock {}
  have hdecides := hexchange Codec.sampleRing sampleClock.reading sampleDraw (sampleRequest token)
    Codec.sampleRing_reachable (mintsWithin_of_issue_sample hissue)
  obtain ⟨set, hset⟩ := hdecides.ok_iff.mpr (requirements_met_sample hissue)
  exact ⟨token, set, hissue, hset⟩

end OpaqueTokens
