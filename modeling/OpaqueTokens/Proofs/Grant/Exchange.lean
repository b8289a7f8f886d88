import OpaqueTokens.Grant.Service
import OpaqueTokens.Proofs.Claims.Decoding
import OpaqueTokens.Proofs.Claims.Derivation
import OpaqueTokens.Proofs.Codec
import OpaqueTokens.Proofs.Grant.Validation

/-!
# What redeeming a code asks

Redeeming a code asks for all that validating it asks. Then the request must repeat the address
that the code is bound to and bring the verifier behind its challenge, and the configured
lifetimes must be ones that tokens can be minted with. Nothing else is asked, as long as the cipher
takes the minted tokens.
-/

namespace OpaqueTokens

open Requirement
open Time (Instant Reading Span)

/-- A service over the caches in memory. -/
def Service.inMemory (config : Config) (codec : Codec) : Service Caches :=
  ⟨config, codec, .inMemory⟩

/-- A service over the caches in memory, with the sealer of a ring. -/
def Service.ofRing (config : Config) (ring : Keyring) : Service Caches :=
  .inMemory config (.ofRing Crypto.Gcm.aead ring)

/-- The answer to a verifier that is refused. -/
def pkceRefusal : Except PkceError Unit → GrantError
  | .error error => .ofPkce error
  | .ok () => .messageAuthentication

/-- What redeeming asks of the claims of a code that passed validation. -/
def redemptionRequirements (config : Config) (now : Instant) (request : CodeExchange)
    (claims : TokenClaims) : List Requirement :=
  let verified := config.pkce.verify claims.codeChallenge request.codeVerifier
  [⟨∀ uri, claims.common.redirectUri = some uri → request.redirectUri = some uri,
    .invalidGrant .redirectMismatch⟩,
   ⟨verified = .ok (), pkceRefusal verified⟩,
   ⟨config.lifetimes.accessToken.MintableAt now, .ofClaims .invalidLifetime⟩,
   ⟨(config.refresh.requireOfflineAccess = true → claims.common.scope.hasOfflineAccess = true) →
      config.lifetimes.refreshToken.MintableAt now, .ofClaims .invalidLifetime⟩]

/-- What exchanging a code asks of its claims. -/
def exchangeRequirements (config : Config) (caches : Caches) (clock now : Instant)
    (request : CodeExchange) (claims : TokenClaims) : List Requirement :=
  grantRequirements caches clock now request.clientId claims ++
    redemptionRequirements config now request claims

/-- A request presents a code to a service: its token reads as the code, it comes from the client of
the code, and the time that is named lies before the expiry. -/
structure CodeExchange.Presents (request : CodeExchange) (codec : Codec) (clock now : Instant)
    (code : CodeClaims) : Prop where
  reads : codec.parseCode clock request.code = .ok code
  client : code.common.clientId.text = request.clientId
  unexpired : now < code.common.expiresAt

namespace Service

variable {σ : Type}

/-- The cipher takes the tokens that redeeming a code mints. -/
structure SealsMinted (service : Service σ) (now : Instant) (draw : Draw) (code : CodeClaims) :
    Prop where
  access : ∀ access,
    code.accessToken service.config.lifetimes.accessToken now draw.accessId = .ok access →
      ∃ token, service.codec.issue draw.accessNonce (.access access) = .ok token
  refresh : ∀ refresh,
    code.refreshToken service.config.lifetimes.refreshToken now draw.refreshId = .ok refresh →
      ∃ token, service.codec.issue draw.refreshNonce (.refresh refresh) = .ok token

/-- The tokens that redeeming a code mints have sealed forms up to a length. -/
structure MintsWithin (service : Service σ) (limit : Nat) (now : Instant) (draw : Draw)
    (code : CodeClaims) : Prop where
  access : ∀ access,
    code.accessToken service.config.lifetimes.accessToken now draw.accessId = .ok access →
      (Envelope.content access.common.expiresAt.seconds (Wire.encode (.access access))).length ≤
        limit
  refresh : ∀ refresh,
    code.refreshToken service.config.lifetimes.refreshToken now draw.refreshId = .ok refresh →
      (Envelope.content refresh.common.expiresAt.seconds (Wire.encode (.refresh refresh))).length ≤
        limit

/-- The sealer of a ring takes what fits the cipher. -/
theorem MintsWithin.sealsMinted {config : Config} {ring : Keyring} {now : Instant} {draw : Draw}
    {code : CodeClaims} (hring : ring.Reachable)
    (h : (ofRing config ring).MintsWithin Crypto.Gcm.maxTextLength now draw code) :
    (ofRing config ring).SealsMinted now draw code where
  access access haccess :=
    Codec.exists_issue Crypto.Gcm.aead_seals hring.sound _ _ (h.access access haccess)
  refresh refresh hrefresh :=
    Codec.exists_issue Crypto.Gcm.aead_seals hring.sound _ _ (h.refresh refresh hrefresh)

/-- A refresh token is minted unless the configuration asks for a scope that the code lacks. -/
theorem mintsRefresh_iff {service : Service σ} {code : CodeClaims} :
    service.mintsRefresh code = true ↔
      (service.config.refresh.requireOfflineAccess = true →
        code.common.scope.hasOfflineAccess = true) := by
  rw [mintsRefresh]
  cases service.config.refresh.requireOfflineAccess <;> simp

/-- An access token that the cipher takes leads to a set. -/
theorem exists_tokenSet {service : Service σ} {nonce : Nonce} {access : AccessClaims}
    (h : ∃ token, service.codec.issue nonce (.access access) = .ok token)
    (refreshToken : Option String) :
    ∃ set, service.tokenSet nonce access refreshToken = .ok set := by
  obtain ⟨token, htoken⟩ := h
  simp [tokenSet, sealClaims, htoken, pure, Except.pure]

/-- Tokens are minted in three steps: the access token, the refresh token if there is one, and the
set of both. -/
theorem mint_eq (service : Service σ) (now : Instant) (draw : Draw) (code : CodeClaims) :
    service.mint now draw code =
      ((code.accessToken service.config.lifetimes.accessToken now draw.accessId).mapError
        .ofClaims).bind fun access =>
          (if service.mintsRefresh code = true then
            ((code.refreshToken service.config.lifetimes.refreshToken now draw.refreshId).mapError
              .ofClaims).bind fun refresh =>
                (service.sealClaims draw.refreshNonce (.refresh refresh)).map some
          else .ok none).bind (service.tokenSet draw.accessNonce access) := by
  rw [mint]
  cases code.accessToken service.config.lifetimes.accessToken now draw.accessId with
  | error error => rfl
  | ok access =>
    cases service.mintsRefresh code with
    | false => rfl
    | true =>
      cases code.refreshToken service.config.lifetimes.refreshToken now draw.refreshId with
      | error error => rfl
      | ok refresh =>
        simp only [Outcome.mapError_ok, Outcome.ok_bind, Outcome.bind_ok, if_true]
        cases service.sealClaims draw.refreshNonce (.refresh refresh) <;> rfl

/-- A lifetime decides whether claims can be derived from a grant, whatever is made of them. -/
theorem decides_derive {claims : Claims} (h : claims.WellFormed) (lifetime : Span)
    (now : Instant) (fresh : TokenId) {α : Type} (f : Claims → α) :
    Decides [⟨lifetime.MintableAt now, .ofClaims .invalidLifetime⟩]
      (((claims.derive lifetime now fresh).map f).mapError .ofClaims) := by
  rw [Outcome.mapError_map, decides_map_iff]
  by_cases hlifetime : lifetime.MintableAt now
  · obtain ⟨derived, hderived⟩ := Claims.exists_derive h hlifetime fresh
    rw [hderived]
    exact (decides_nil derived).cons_met hlifetime
  · rw [Claims.derive_eq_error h hlifetime fresh]
    exact decides_cons_unmet hlifetime

/-- The lifetimes of the tokens decide whether they can be minted. -/
theorem decides_mint {service : Service σ} {now : Instant} {draw : Draw} {code : CodeClaims}
    (hcode : code.common.WellFormed) (hseals : service.SealsMinted now draw code) :
    Decides
      [⟨service.config.lifetimes.accessToken.MintableAt now, .ofClaims .invalidLifetime⟩,
       ⟨service.mintsRefresh code = true → service.config.lifetimes.refreshToken.MintableAt now,
        .ofClaims .invalidLifetime⟩]
      (service.mint now draw code) := by
  have haccess : Decides
      [⟨service.config.lifetimes.accessToken.MintableAt now, .ofClaims .invalidLifetime⟩]
      ((code.accessToken service.config.lifetimes.accessToken now draw.accessId).mapError
        .ofClaims) := decides_derive hcode _ now _ _
  have hrefresh : Decides
      [⟨service.config.lifetimes.refreshToken.MintableAt now, .ofClaims .invalidLifetime⟩]
      ((code.refreshToken service.config.lifetimes.refreshToken now draw.refreshId).mapError
        .ofClaims) := decides_derive hcode _ now _ _
  rw [mint_eq]
  refine haccess.bind fun access hderived => (Decides.ite (fun _ => ?_) none).bind_ok ?_
  · refine hrefresh.bind_ok fun refresh hderived => ?_
    obtain ⟨token, htoken⟩ := hseals.refresh refresh (Outcome.mapError_eq_ok_iff.mp hderived)
    exact ⟨some token, by simp [sealClaims, htoken]⟩
  · intro refreshToken _
    exact exists_tokenSet (hseals.access access (Outcome.mapError_eq_ok_iff.mp hderived))
      refreshToken

/-- A request repeats an address just when it names the one that the code is bound to, if any. -/
theorem redirectMatches_iff {bound sent : Option String} :
    redirectMatches bound sent = true ↔ ∀ uri, bound = some uri → sent = some uri := by
  cases bound <;> simp [redirectMatches]

/-- What redeeming asks of the claims of a code decides the redemption. -/
theorem decides_redeem {config : Config} {codec : Codec} {now : Instant} {draw : Draw}
    {request : CodeExchange} {code : CodeClaims} (hcode : code.common.WellFormed)
    (hseals : (inMemory config codec).SealsMinted now draw code) :
    Decides (redemptionRequirements config now request (.code code))
      ((inMemory config codec).redeem now draw request (.code code)) := by
  by_cases hredirect : redirectMatches code.common.redirectUri request.redirectUri = true
  · refine Decides.cons_met ?_ (redirectMatches_iff.mp hredirect)
    simp only [redeem, ValidatedGrant.common, hredirect, if_true, PkcePolicy.verifyGrant,
      TokenClaims.codeChallenge, TokenClaims.common, inMemory]
    cases hverify : config.pkce.verify code.codeChallenge request.codeVerifier with
    | error error => exact decides_cons_unmet (by simp)
    | ok =>
      refine Decides.cons_met ?_ (by simp)
      have hmint := decides_mint hcode hseals
      rw [mintsRefresh_iff] at hmint
      exact hmint
  · simp only [redeem, ValidatedGrant.common, hredirect, if_false, Bool.false_eq_true]
    exact decides_cons_unmet fun h => hredirect (redirectMatches_iff.mpr h)

/-- The validator of a service over the caches in memory. -/
theorem grantValidator_inMemory (config : Config) (codec : Codec) :
    (inMemory config codec).grantValidator =
      .inMemory codec (inMemory config codec).grantValidator.replayRevocation := rfl

/-- The answer to an exchange is about parsing the code, then about its claims, and then about
redeeming it. -/
theorem exchange_snd (config : Config) (codec : Codec) (moments : Moments) (now : Reading)
    (draw : Draw) (request : CodeExchange) (caches : Caches) :
    ((inMemory config codec).exchange moments now draw request caches).2 =
      ((codec.parse moments.unsealing request.code .authorizationCode).mapError .ofCodec).bind
        fun claims => ((inMemory config codec).grantValidator.validateClaims moments.lookup now
          request.clientId claims caches).2.bind
            ((inMemory config codec).redeem now.universal draw request) := by
  have hvalidate : ((inMemory config codec).exchange moments now draw request caches).2 =
      ((inMemory config codec).grantValidator.validate moments now request.code .authorizationCode
        request.clientId caches).2.bind
        ((inMemory config codec).redeem now.universal draw request) := rfl
  rw [hvalidate, grantValidator_inMemory, GrantValidator.validate_snd, Outcome.bind_assoc]
  rfl

/-- What is asked of a code decides its exchange. -/
theorem decides_exchange {config : Config} {codec : Codec} {moments : Moments} {now : Reading}
    {draw : Draw} {request : CodeExchange} (caches : Caches)
    (hseals : ∀ code, codec.parseCode moments.unsealing request.code = .ok code →
      (inMemory config codec).SealsMinted now.universal draw code) :
    Decides (codec.requirements moments.unsealing request.code .authorizationCode
        (exchangeRequirements config caches moments.lookup now.universal request))
      ((inMemory config codec).exchange moments now draw request caches).2 := by
  rw [exchange_snd, grantValidator_inMemory]
  refine Codec.decides_requirements fun claims hparse => ?_
  have hbuilt := Codec.built_of_parse hparse
  rw [codec.parse_authorizationCode] at hparse
  obtain ⟨code, hcode, rfl⟩ := Outcome.map_eq_ok_iff.mp hparse
  refine (GrantValidator.decides_validateClaims codec _ moments.lookup now request.clientId caches
    (.code code) nofun).bind fun grant hgrant => ?_
  have hgrant : grant = .code code := by
    have hclaims := GrantValidator.claims_of_validateClaims hgrant
    cases grant with
    | code other => exact congrArg _ (TokenClaims.code.inj hclaims)
    | refresh other => cases hclaims
  subst hgrant
  exact decides_redeem hbuilt.wellFormed (hseals code hcode)

section Presented

variable {config : Config} {codec : Codec} {moments : Moments} {now : Reading} {draw : Draw}
  {request : CodeExchange} {caches : Caches} {code : CodeClaims}

/-- A code that is presented is refused if it is marked when the store is asked, and else marked and
accepted. -/
theorem validate_of_presents (h : request.Presents codec moments.unsealing now.universal code) :
    (inMemory config codec).grantValidator.validate moments now request.code .authorizationCode
        request.clientId caches =
      if caches.replay.isMarked code.common.id moments.lookup = true then
        (caches.replayed (inMemory config codec).grantValidator.replayRevocation now code,
          .error (.invalidGrant .replayed))
      else (caches.used code, .ok (.code code)) := by
  have hparse : codec.parse moments.unsealing request.code GrantKind.authorizationCode.tokenType =
      .ok (.code code) := Codec.parseCode_eq_ok_iff.mp h.reads
  have hclient : ¬code.common.clientId.text ≠ request.clientId := not_not_intro h.client
  have hexpired : ¬code.common.expiresAt ≤ now.universal := Int.not_le.mpr h.unexpired
  rw [grantValidator_inMemory, GrantValidator.validate_of_parse _ _ _ _ _ _ hparse,
    GrantValidator.validateClaims_code, if_neg hclient, if_neg hexpired]
  rfl

/-- A code that is presented is refused if it is marked, and else marked and redeemed. -/
theorem exchange_of_presents (h : request.Presents codec moments.unsealing now.universal code) :
    (inMemory config codec).exchange moments now draw request caches =
      if caches.replay.isMarked code.common.id moments.lookup = true then
        (caches.replayed (inMemory config codec).grantValidator.replayRevocation now code,
          .error (.invalidGrant .replayed))
      else
        (caches.used code,
          (inMemory config codec).redeem now.universal draw request (.code code)) := by
  rw [exchange, validate_of_presents h]
  by_cases hmarked : caches.replay.isMarked code.common.id moments.lookup = true
  · rw [if_pos hmarked, if_pos hmarked]
    rfl
  · rw [if_neg hmarked, if_neg hmarked]
    rfl

/-- A code that is presented and not marked is marked and redeemed. -/
theorem exchange_of_unmarked (h : request.Presents codec moments.unsealing now.universal code)
    (hunmarked : caches.replay.isMarked code.common.id moments.lookup = false) :
    (inMemory config codec).exchange moments now draw request caches = (caches.used code,
      (inMemory config codec).redeem now.universal draw request (.code code)) := by
  rw [exchange_of_presents h, if_neg (by simp [hunmarked])]

end Presented

end Service

end OpaqueTokens
