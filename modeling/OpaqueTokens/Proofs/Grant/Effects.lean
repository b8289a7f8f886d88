import OpaqueTokens.Proofs.Cache.Revocation
import OpaqueTokens.Proofs.Grant.Minting
import OpaqueTokens.Proofs.Grant.SingleUse

/-!
# What calls leave behind

Refreshing and validating access tokens leave the caches alone and never look at the marks of codes.
An exchange whose code does not get to the check for its first use leaves them alone as well. The
first exchange that gets there marks the code, and the mark stays whatever comes of the redemption;
a later one may revoke the lineage of the code and does nothing else. So a code is used up by every
outcome past that check, also by a failure. Tokens are handed out by a success only, for a code that
had no mark or a refresh token whose lineage was not revoked.
-/

namespace OpaqueTokens

open Time (Deadline Instant Reading Span)

/-- One identifier is marked until an instant; nothing else about the caches is different. -/
structure Caches.MarksOnly (before after : Caches) (id : TokenId) (validUntil : Instant) :
    Prop where
  revocation : after.revocation = before.revocation
  find? : ∀ other, after.replay.find? other =
    if other = id then some validUntil else before.replay.find? other

/-- The record of one lineage is extended to a deadline, unless it lasts longer; nothing else about
the caches is different. -/
structure Caches.RevokesOnly (before after : Caches) (lineage : TokenId) (deadline : Deadline) :
    Prop where
  replay : after.replay = before.replay
  find? : ∀ other, after.revocation.find? other =
    if other = lineage then
      some (RevocationCache.extended (before.revocation.find? lineage) deadline)
    else before.revocation.find? other

theorem Caches.marksOnly_used (caches : Caches) (code : CodeClaims) :
    caches.MarksOnly (caches.used code) code.common.id code.common.expiresAt :=
  ⟨rfl, fun other => ReplayCache.find?_put _ _ other _⟩

theorem Caches.revokesOnly_replayed (caches : Caches) (span : Span) (now : Reading)
    (code : CodeClaims) :
    caches.RevokesOnly (caches.replayed (some span) now code) code.common.lineage
      (now.after span) :=
  ⟨rfl, fun other => RevocationCache.find?_revokeUntil _ _ other _⟩

/-- Validating a refresh token leaves the caches alone, and whatever is marked makes no difference
to the answer. -/
theorem GrantValidator.validate_refreshToken_eq (codec : Codec) (replayRevocation : Option Span)
    (moments : Moments) (now : Reading) (token client : String) (caches : Caches)
    (replay : ReplayCache) :
    (inMemory codec replayRevocation).validate moments now token .refreshToken client
        { caches with replay } =
      ({ caches with replay }, ((inMemory codec replayRevocation).validate moments now token
        .refreshToken client caches).2) := by
  cases hparse : codec.parse moments.unsealing token GrantKind.refreshToken.tokenType with
  | error error =>
    rw [validate_of_error _ _ _ _ _ _ hparse, validate_of_error _ _ _ _ _ _ hparse]
  | ok claims =>
    rw [validate_of_parse _ _ _ _ _ _ hparse, validate_of_parse _ _ _ _ _ _ hparse]
    rw [GrantKind.tokenType, codec.parse_refreshToken] at hparse
    obtain ⟨refresh, -, rfl⟩ := Outcome.map_eq_ok_iff.mp hparse
    rw [validateClaims_refresh, validateClaims_refresh]

/-- Operations on tokens that may be used any number of times. -/
inductive Operation.Reusable : Operation → Prop where
  | refresh (now : Reading) (draw : Draw) (request : RefreshExchange) :
    Reusable (.refresh now draw request)
  | validateAccess (now : Instant) (token : String) : Reusable (.validateAccess now token)

namespace Service

variable {config : Config} {codec : Codec} {moments : Moments} {now : Reading} {draw : Draw}
  {request : CodeExchange} {caches : Caches} {code : CodeClaims}

/-- Refreshing and validating access tokens leave the caches alone, and whatever is marked makes no
difference to the answers. -/
theorem perform_of_reusable {call : Call} (h : call.operation.Reusable) (caches : Caches)
    (replay : ReplayCache) :
    (inMemory config codec).perform call { caches with replay } =
      ({ caches with replay }, ((inMemory config codec).perform call caches).2) := by
  obtain ⟨moments, operation⟩ := call
  cases h with
  | refresh now draw request =>
    simp only [perform, refresh]
    rw [grantValidator_inMemory, GrantValidator.validate_refreshToken_eq]
  | validateAccess now token => rfl

/-- A token that presents no code is refused before anything is marked. -/
theorem exchange_of_not_presents (config : Config) (draw : Draw) (caches : Caches)
    (h : ∀ code, ¬request.Presents codec moments.unsealing now.universal code) :
    ∃ reason ∈ [Refusal.unreadable, .wrongType, .clientMismatch, .expired],
      (inMemory config codec).exchange moments now draw request caches =
        (caches, .error (.invalidGrant reason)) := by
  rw [exchange, grantValidator_inMemory]
  cases hparse : codec.parse moments.unsealing request.code
    GrantKind.authorizationCode.tokenType with
  | error error =>
    obtain ⟨reason, hreason, herror⟩ : ∃ reason ∈ [Refusal.unreadable, .wrongType,
        .clientMismatch, .expired], GrantError.ofCodec error = .invalidGrant reason := by
      unfold GrantError.ofCodec
      split
      · exact ⟨.wrongType, by decide, rfl⟩
      · exact ⟨.expired, by decide, rfl⟩
      · exact ⟨.unreadable, by decide, rfl⟩
    refine ⟨reason, hreason, ?_⟩
    rw [GrantValidator.validate_of_error _ _ _ _ _ _ hparse, herror]
    rfl
  | ok claims =>
    rw [GrantValidator.validate_of_parse _ _ _ _ _ _ hparse]
    rw [GrantKind.tokenType, codec.parse_authorizationCode] at hparse
    obtain ⟨code, hreads, rfl⟩ := Outcome.map_eq_ok_iff.mp hparse
    rw [GrantValidator.validateClaims_code]
    by_cases hclient : code.common.clientId.text ≠ request.clientId
    · exact ⟨.clientMismatch, by decide, by rw [if_pos hclient]; rfl⟩
    · have hexpired : code.common.expiresAt ≤ now.universal :=
        Int.not_lt.mp fun hlater => h code ⟨hreads, not_not.mp hclient, hlater⟩
      exact ⟨.expired, by decide, by rw [if_neg hclient, if_pos hexpired]; rfl⟩

/-- Only the service itself is at fault if an outcome is an error. -/
def Internal {α : Type} (outcome : Except GrantError α) : Prop :=
  ∀ error, outcome = .error error → ∃ detail, error = .internal detail

theorem internal_ok {α : Type} (a : α) : Internal (.ok a) := nofun

theorem Internal.bind {α β : Type} {outcome : Except GrantError α}
    {next : α → Except GrantError β} (h : Internal outcome) (hnext : ∀ a, Internal (next a)) :
    Internal (outcome.bind next) := by
  cases outcome with
  | ok a => exact hnext a
  | error error =>
    intro other hother
    exact h other (congrArg _ (Except.error.inj hother))

theorem Internal.map {α β : Type} {outcome : Except GrantError α} (h : Internal outcome)
    (f : α → β) : Internal (outcome.map f) := by
  cases outcome with
  | ok a => exact internal_ok (f a)
  | error error =>
    intro other hother
    exact h other (congrArg _ (Except.error.inj hother))

theorem internal_mapError {α ε : Type} (outcome : Except ε α) {rename : ε → GrantError}
    (h : ∀ error, ∃ detail, rename error = .internal detail) :
    Internal (outcome.mapError rename) := by
  cases outcome with
  | ok a => exact internal_ok a
  | error error =>
    rintro other hother
    obtain rfl := Except.error.inj hother
    exact h error

/-- Minting fails for reasons of the service only. -/
theorem internal_mint {σ : Type} (service : Service σ) (now : Instant) (draw : Draw)
    (code : CodeClaims) : Internal (service.mint now draw code) := by
  have hseal (nonce : Nonce) (claims : TokenClaims) : Internal (service.sealClaims nonce claims) :=
    internal_mapError _ fun error => ⟨_, rfl⟩
  rw [mint_eq]
  refine (internal_mapError _ fun error => ⟨_, rfl⟩).bind fun access => ?_
  refine Internal.bind ?_ fun refresh => (hseal _ _).bind fun token => internal_ok _
  split
  · exact (internal_mapError _ fun error => ⟨_, rfl⟩).bind fun refresh => (hseal _ _).map some
  · exact internal_ok none

/-- Redeeming a code that passed validation refuses the grant for its address only. -/
theorem reason_of_redeem {σ : Type} {service : Service σ} {now : Instant} {reason : Refusal}
    (h : service.redeem now draw request (.code code) = .error (.invalidGrant reason)) :
    reason = .redirectMismatch := by
  rw [redeem] at h
  split at h
  · cases hverify : service.config.pkce.verifyGrant (.code code) request.codeVerifier with
    | error error =>
      simp only [hverify, Outcome.mapError_error, Outcome.error_bind, Except.error.injEq,
        GrantError.ofPkce] at h
      split at h <;> cases h
    | ok =>
      simp only [hverify, Outcome.mapError_ok, Outcome.ok_bind] at h
      obtain ⟨detail, hdetail⟩ := internal_mint service now draw code _ h
      cases hdetail
  · cases h
    rfl

/-- An exchange is answered as a replay just when it presents a code that is marked. -/
theorem exchange_eq_replayed_iff :
    ((inMemory config codec).exchange moments now draw request caches).2 =
        .error (.invalidGrant .replayed) ↔
      ∃ code, request.Presents codec moments.unsealing now.universal code ∧
        caches.replay.isMarked code.common.id moments.lookup = true := by
  constructor
  · intro h
    by_cases hpresented : ∃ code, request.Presents codec moments.unsealing now.universal code
    · obtain ⟨code, hpresents⟩ := hpresented
      rw [exchange_of_presents hpresents] at h
      split at h
      · rename_i hmarked
        exact ⟨code, hpresents, hmarked⟩
      · cases reason_of_redeem h
    · obtain ⟨reason, hreason, hrefused⟩ :=
        exchange_of_not_presents config draw caches (not_exists.mp hpresented)
      rw [hrefused, Except.error.injEq, GrantError.invalidGrant.injEq] at h
      subst h
      simp at hreason
  · rintro ⟨code, hpresents, hmarked⟩
    rw [exchange_of_presents hpresents, if_pos hmarked]

/-- A code is used up: as long as the clock has not reached its expiry when its mark is looked up,
whoever presents it is told that it was used before, whatever was called in between. -/
def UsedUp (service : Service Caches) (caches : Caches) (code : CodeClaims) : Prop :=
  ∀ (between : List Call) (moments : Moments) (now : Reading) (draw : Draw)
    (request : CodeExchange), (∀ call ∈ between, call.moments.lookup ≤ moments.lookup) →
    request.Presents service.codec moments.unsealing now.universal code →
      moments.lookup < code.common.expiresAt →
        (service.exchange moments now draw request (service.after caches between)).2 =
          .error (.invalidGrant .replayed)

/-- A code whose mark lasts until its expiry is used up. -/
theorem usedUp_of_holdsUntil
    (h : caches.replay.HoldsUntil code.common.id code.common.expiresAt) :
    (inMemory config codec).UsedUp caches code := by
  intro between moments now draw request hbetween hpresents hunexpired
  have hheld : ((inMemory config codec).after caches between).replay.HoldsUntil code.common.id
      code.common.expiresAt :=
    h.after fun call hcall => Int.lt_of_le_of_lt (hbetween call hcall) hunexpired
  have hpresents : request.Presents codec moments.unsealing now.universal code := hpresents
  rw [exchange_of_presents hpresents, if_pos (hheld.isMarked hunexpired)]

/-- A grant that is accepted is a code without a mark, or a refresh token of a lineage that is not
revoked. -/
theorem unspent_of_validate {replayRevocation : Option Span} {token client : String}
    {kind : GrantKind} {grant : ValidatedGrant}
    (h : ((GrantValidator.inMemory codec replayRevocation).validate moments now token kind client
      caches).2 = .ok grant) :
    grant.claims.type = .authorizationCode ∧
        caches.replay.isMarked grant.claims.common.id moments.lookup = false ∨
      grant.claims.type = .refreshToken ∧
        caches.revocation.isRevoked grant.claims.common.lineage moments.lookup = false := by
  have hhonoured := GrantValidator.honoured_of_validate h
  cases grant with
  | code code => exact .inl ⟨rfl, hhonoured.unmarked rfl⟩
  | refresh refresh => exact .inr ⟨rfl, hhonoured.unrevoked (by simp [ValidatedGrant.claims, TokenClaims.type])⟩

/-- A call that hands out tokens is answered with a set, and presents a code without a mark or a
refresh token of a lineage that is not revoked. -/
theorem unspent_of_mem_minted {call : Call} {token : String}
    (h : token ∈ ((inMemory config codec).perform call caches).2.minted) :
    (∃ set, ((inMemory config codec).perform call caches).2 = .set (.ok set) ∧
        token ∈ set.tokens) ∧
      ∃ claims, call.Presents codec claims ∧
        (claims.type = .authorizationCode ∧
            caches.replay.isMarked claims.common.id call.moments.lookup = false ∨
          claims.type = .refreshToken ∧
            caches.revocation.isRevoked claims.common.lineage call.moments.lookup = false) := by
  obtain ⟨set, hset, htoken⟩ := Answer.mem_minted_iff.mp h
  refine ⟨⟨set, hset, htoken⟩, ?_⟩
  obtain ⟨moments, operation⟩ := call
  cases operation with
  | exchange now draw request =>
    obtain ⟨grant, hgrant, -⟩ := Outcome.bind_eq_ok_iff.mp (Answer.set.inj hset)
    have hparse := GrantValidator.claims_of_validate hgrant
    exact ⟨grant.claims, ⟨request.code, rfl, _, _, hparse⟩, unspent_of_validate hgrant⟩
  | refresh now draw request =>
    obtain ⟨grant, hgrant, -⟩ := Outcome.bind_eq_ok_iff.mp (Answer.set.inj hset)
    have hparse := GrantValidator.claims_of_validate hgrant
    exact ⟨grant.claims, ⟨request.refreshToken, rfl, _, _, hparse⟩, unspent_of_validate hgrant⟩
  | issueCode | issueAccess | validateGrant | validateAccess | revoke | cleanupReplay
  | cleanupRevocation => cases hset

/-- What a call changes. Refreshing and validating access tokens change nothing, whatever is marked,
and are answered the same. An exchange changes nothing unless it presents a code. If the code is
marked, the only change is that its lineage is revoked, if so configured; if it is not, the only
change is the mark of the code, whatever the outcome, and the code is used up from then on. Tokens
are handed out only by a call that succeeds, which presents a code without a mark or a refresh token
of a lineage that is not revoked. -/
theorem state_effects (config : Config) (codec : Codec) (caches : Caches) (moments : Moments) :
    (∀ call : Call, call.operation.Reusable → ∀ replay,
      (inMemory config codec).perform call { caches with replay } =
        ({ caches with replay }, ((inMemory config codec).perform call caches).2)) ∧
    (∀ (now : Reading) (draw : Draw) (request : CodeExchange) (after : Caches)
        (outcome : Except GrantError TokenSet),
      (inMemory config codec).exchange moments now draw request caches = (after, outcome) →
      ((∀ code, ¬request.Presents codec moments.unsealing now.universal code) →
        after = caches ∧
        ∃ reason ∈ [Refusal.unreadable, .wrongType, .clientMismatch, .expired],
          outcome = .error (.invalidGrant reason)) ∧
      ∀ code, request.Presents codec moments.unsealing now.universal code →
        (caches.replay.isMarked code.common.id moments.lookup = true →
          outcome = .error (.invalidGrant .replayed) ∧
          if config.replay.revokeLineageOnReplay = true then
            caches.RevokesOnly after code.common.lineage (now.after config.lifetimes.refreshToken)
          else after = caches) ∧
        (caches.replay.isMarked code.common.id moments.lookup = false →
          caches.MarksOnly after code.common.id code.common.expiresAt ∧
          (∀ reason, outcome = .error (.invalidGrant reason) → reason = .redirectMismatch) ∧
          (inMemory config codec).UsedUp after code)) ∧
    ∀ call token, token ∈ ((inMemory config codec).perform call caches).2.minted →
      (∃ set, ((inMemory config codec).perform call caches).2 = .set (.ok set) ∧
        token ∈ set.tokens) ∧
      ∃ claims, call.Presents codec claims ∧
        (claims.type = .authorizationCode ∧
            caches.replay.isMarked claims.common.id call.moments.lookup = false ∨
          claims.type = .refreshToken ∧
            caches.revocation.isRevoked claims.common.lineage call.moments.lookup = false) := by
  refine ⟨fun call hreusable => perform_of_reusable hreusable caches, ?_,
    fun call token => unspent_of_mem_minted⟩
  intro now draw request after outcome hexchange
  refine ⟨fun hnone => ?_, fun code hpresents => ⟨fun hmarked => ?_, fun hunmarked => ?_⟩⟩
  · obtain ⟨reason, hreason, hrefused⟩ := exchange_of_not_presents config draw caches hnone
    obtain ⟨rfl, rfl⟩ := Prod.mk.inj (hexchange.symm.trans hrefused)
    exact ⟨rfl, reason, hreason, rfl⟩
  · rw [exchange_of_presents hpresents, if_pos hmarked] at hexchange
    obtain ⟨rfl, rfl⟩ := Prod.mk.inj hexchange
    refine ⟨rfl, ?_⟩
    by_cases hrevokes : config.replay.revokeLineageOnReplay = true
    · simpa [hrevokes, grantValidator, inMemory] using
        Caches.revokesOnly_replayed caches config.lifetimes.refreshToken now code
    · simp [hrevokes, grantValidator, inMemory, Caches.replayed]
  · rw [exchange_of_unmarked hpresents hunmarked] at hexchange
    obtain ⟨rfl, rfl⟩ := Prod.mk.inj hexchange
    exact ⟨caches.marksOnly_used code, fun reason => reason_of_redeem,
      usedUp_of_holdsUntil (ReplayCache.holdsUntil_put _ _ _)⟩

/-- Half a minute after the sample code was issued. -/
def laterSampleClock : Instant :=
  ⟨30000000000, by decide, by decide⟩

/-- The sample code, presented without its address, is used up: the request that is right comes too
late. -/
theorem state_effects_sample :
    ∃ token after, Codec.sampleCodec.issue Codec.sampleNonce (.code Codec.sampleCode) = .ok token ∧
      sampleService.exchange sampleClock sampleClock.reading sampleDraw
        { sampleRequest token with redirectUri := none } {} =
          (after, .error (.invalidGrant .redirectMismatch)) ∧
      Caches.MarksOnly {} after Codec.sampleCode.common.id Codec.sampleCode.common.expiresAt ∧
      (sampleService.exchange laterSampleClock laterSampleClock.reading sampleDraw
        (sampleRequest token) after).2 = .error (.invalidGrant .replayed) := by
  obtain ⟨token, hissue⟩ := Codec.exists_issue_sample
  have hfirst := presents_sample hissue (by decide : sampleClock.seconds < _)
    (by decide : sampleClock < _) none
  have hlater : laterSampleClock < Codec.sampleCode.common.expiresAt := by decide
  have hsecond := presents_sample hissue (by decide : laterSampleClock.seconds < _) hlater
    (sampleRequest token).redirectUri
  have hexchange : sampleService.exchange sampleClock sampleClock.reading sampleDraw
      { sampleRequest token with redirectUri := none } {} =
        (Caches.used {} Codec.sampleCode, .error (.invalidGrant .redirectMismatch)) :=
    (exchange_of_presents hfirst).trans rfl
  obtain ⟨-, hexchanges, -⟩ := state_effects sampleConfig Codec.sampleCodec {} sampleClock
  obtain ⟨-, hcodes⟩ := hexchanges _ _ _ _ _ hexchange
  obtain ⟨hmarks, -, husedUp⟩ := (hcodes Codec.sampleCode hfirst).2 rfl
  exact ⟨token, _, hissue, hexchange, hmarks,
    husedUp [] laterSampleClock laterSampleClock.reading sampleDraw (sampleRequest token)
      (by simp) hsecond hlater⟩

end Service

end OpaqueTokens
