import OpaqueTokens.Proofs.Grant.RevokedLineage
import OpaqueTokens.Proofs.Time.Arithmetic

/-!
# What revoking a token does

A client may revoke refresh tokens and access tokens. A token that reads as one of them for another
client is refused, and every other token is accepted. Only one that is the client's own and
unexpired has an effect: the record of its lineage is extended to when a refresh token minted now
would expire, or to the last instant. A token that the codec issued is unexpired whenever it reads
as anything. A token is tried as a refresh token first; since it is of one type at most, it could as
well be tried as an access token first.
-/

namespace OpaqueTokens

open Crypto (Gcm.aead Gcm.aead_exact Gcm.aead_seals)
open Time (Deadline Instant)

namespace Codec

/-- A token can be revoked with its claims: it now reads as them for a refresh token or for an
access token. -/
def Revocable (codec : Codec) (clock : Instant) (token : String) (claims : TokenClaims) : Prop :=
  codec.parse clock token .refreshToken = .ok claims ∨
    codec.parse clock token .accessToken = .ok claims

/-- Why a token cannot be revoked: it is a code, it is not unsealed, or what was sealed are no
claims. -/
inductive Unrevocable (codec : Codec) (clock : Instant) (token : String) : Prop where
  | code {claims : TokenClaims} (h : codec.parse clock token .authorizationCode = .ok claims)
  | refused {error : SealingError} (h : codec.sealer.unsealPayload clock token = .error error)
  | undecodable {payload : List UInt8} (h : codec.sealer.unsealPayload clock token = .ok payload)
      (hdecode : ∀ type claims, Wire.decode payload type ≠ .ok claims)

/-- A token is tried as one type and then, if it is of another one, as a second type. -/
def tryParse (codec : Codec) (clock : Instant) (token : String) (first second : TokenType) :
    Except CodecError TokenClaims :=
  match codec.parse clock token first with
  | .ok claims => .ok claims
  | .error error =>
    if error.isTypeMismatch then codec.parse clock token second else .error error

variable {codec : Codec} {clock : Instant} {token : String} {claims other : TokenClaims}

/-- What a token can be revoked with is what it reads as, and no code. -/
theorem revocable_iff : codec.Revocable clock token claims ↔
    codec.parse clock token claims.type = .ok claims ∧ claims.type ≠ .authorizationCode := by
  constructor
  · rintro (h | h)
    · rw [type_of_parse h]
      exact ⟨h, by decide⟩
    · rw [type_of_parse h]
      exact ⟨h, by decide⟩
  · rintro ⟨h, htype⟩
    cases claims with
    | code code => exact absurd rfl htype
    | access access => exact .inr h
    | refresh refresh => exact .inl h

/-- A token can be revoked with one set of claims at most. -/
theorem Revocable.unique (h : codec.Revocable clock token claims)
    (hother : codec.Revocable clock token other) : other = claims := by
  have hparse := (revocable_iff.mp h).1
  have hparseOther := (revocable_iff.mp hother).1
  have htype : other.type = claims.type :=
    ((codec.parse_consistent clock token).of_ok hparse).unique
      ((codec.parse_consistent clock token).of_ok hparseOther)
  rw [htype, hparse] at hparseOther
  exact (Except.ok.inj hparseOther).symm

/-- What holds of some claims that a token can be revoked with holds of all. -/
theorem Revocable.exists_and_iff (h : codec.Revocable clock token claims)
    (p : TokenClaims → Prop) :
    (∃ other, codec.Revocable clock token other ∧ p other) ↔ p claims := by
  constructor
  · rintro ⟨other, hother, hp⟩
    rwa [h.unique hother] at hp
  · intro hp
    exact ⟨claims, h, hp⟩

/-- There is a reason just when a token cannot be revoked with any claims. -/
theorem unrevocable_iff :
    codec.Unrevocable clock token ↔ ∀ claims, ¬codec.Revocable clock token claims := by
  constructor
  · intro h claims hrevocable
    obtain ⟨hparse, htype⟩ := revocable_iff.mp hrevocable
    obtain ⟨payload, hunseal, hdecode⟩ := parse_eq_ok_iff.mp hparse
    cases h with
    | code hcode =>
      exact htype (((codec.parse_consistent clock token).of_ok hcode).unique
        ((codec.parse_consistent clock token).of_ok hparse))
    | refused hrefused =>
      rw [hrefused] at hunseal
      cases hunseal
    | undecodable hpayload hnone =>
      rw [hpayload] at hunseal
      obtain rfl := Except.ok.inj hunseal
      exact hnone _ _ hdecode
  · intro h
    cases hunseal : codec.sealer.unsealPayload clock token with
    | error error => exact .refused hunseal
    | ok payload =>
      by_cases hcode : ∃ claims, codec.parse clock token .authorizationCode = .ok claims
      · obtain ⟨claims, hcode⟩ := hcode
        exact .code hcode
      · apply Unrevocable.undecodable hunseal
        intro type claims hdecode
        have hparse : codec.parse clock token type = .ok claims :=
          parse_eq_ok_iff.mpr ⟨payload, hunseal, hdecode⟩
        cases type with
        | authorizationCode => exact hcode ⟨claims, hparse⟩
        | accessToken => exact h claims (.inr hparse)
        | refreshToken => exact h claims (.inl hparse)

section TryParse

variable {found first second : TokenType}

/-- A token that is tried as its own type first is tried as no other. -/
theorem tryParse_own (h : ReadsAs typeMismatch (codec.parse clock token) found)
    (second : TokenType) :
    codec.tryParse clock token found second = codec.parse clock token found := by
  rw [tryParse]
  cases hparse : codec.parse clock token found with
  | ok claims => rfl
  | error error =>
    have hmatch : ¬error.isTypeMismatch = true := by
      rw [isTypeMismatch_iff]
      rintro ⟨expected, other, rfl⟩
      exact h.own expected other hparse
    exact if_neg hmatch

/-- A token that is tried as a type that it is not of is then tried as the second type. -/
theorem tryParse_of_ne (h : ReadsAs typeMismatch (codec.parse clock token) found)
    (hne : first ≠ found) (second : TokenType) :
    codec.tryParse clock token first second = codec.parse clock token second := by
  rw [tryParse, h.others first hne]
  rfl

/-- A token that is refused alike for all types is tried as one only. -/
theorem tryParse_of_refused {error : CodecError}
    (hne : ∀ expected found, error ≠ typeMismatch expected found)
    (h : ∀ type, codec.parse clock token type = .error error) (first second : TokenType) :
    codec.tryParse clock token first second = .error error := by
  have hmatch : ¬error.isTypeMismatch = true := by
    rw [isTypeMismatch_iff]
    rintro ⟨expected, found, heq⟩
    exact hne expected found heq
  rw [tryParse, h first]
  exact if_neg hmatch

/-- Trying a token as two types leads to what parsing it as one of them does. -/
theorem tryParse_eq_or (codec : Codec) (clock : Instant) (token : String)
    (first second : TokenType) :
    codec.tryParse clock token first second = codec.parse clock token first ∨
      codec.tryParse clock token first second = codec.parse clock token second := by
  rw [tryParse]
  cases codec.parse clock token first with
  | ok claims => exact .inl rfl
  | error error => exact (ite_eq_or_eq _ _ _).symm

end TryParse

/-- What a token that was issued can be revoked with has not expired. -/
theorem Revocable.lt_expiresAt {ring : Keyring} (hring : ring.Reachable)
    (hissued : (ofRing Gcm.aead ring).Issued token)
    (h : (ofRing Gcm.aead ring).Revocable clock token claims) :
    clock < claims.common.expiresAt := by
  obtain ⟨nonce, issued, hissue⟩ := hissued
  have hparse := (revocable_iff.mp h).1
  obtain ⟨-, delivery, hcommon⟩ := Reads.of_issue hring hissue ⟨clock, claims.type, hparse⟩
  rw [parse_of_issue Gcm.aead_seals hring.sound hissue, Outcome.ite_error_eq_ok_iff] at hparse
  have hseconds : claims.common.expiresAt.seconds = issued.common.expiresAt.seconds := by
    rw [hcommon]
    exact Instant.seconds_floor _
  apply Instant.lt_of_seconds_lt
  rw [hseconds]
  exact Int.not_le.mp hparse.1

/-- An error of a ring's sealer says something about the token. -/
theorem isRejection_of_parse {ring : Keyring} (hring : ring.Reachable) {type : TokenType}
    {error : SealingError}
    (h : (ofRing Gcm.aead ring).parse clock token type = .error (.sealing error)) :
    error.isRejection = true := by
  have hunseal : ring.unsealPayload Gcm.aead clock token = .error error :=
    parse_eq_sealing_iff.mp h
  cases error with
  | encryption detail =>
    exact absurd hunseal
      (Keyring.unsealPayload_ne_encryption Gcm.aead_seals Gcm.aead_exact hring.sound detail)
  | tampered | expired | malformed => rfl

end Codec

namespace Config

/-- Up to when a lineage is revoked, by the steps of adding the lifetime. -/
theorem horizon_eq_addSigned? (config : Config) (now : Instant) : config.horizon now =
    ((now.addSigned? config.lifetimes.refreshToken).getD Instant.last).deadline := by
  rw [horizon, Instant.after_reading, Instant.after, Instant.addSigned?_eq_add?]

/-- Up to when a lineage is revoked, as a number: the sum, or the last instant if that is
earlier. -/
theorem horizon_nanos (config : Config) (now : Instant) : (config.horizon now).nanos =
    min (now.nanos + config.lifetimes.refreshToken.nanos) Time.lastNanos := by
  rw [horizon, Time.Reading.after, Instant.shown_reading]
  split
  · rename_i hle
    exact (Int.min_eq_left hle).symm
  · rename_i hlt
    exact (Int.min_eq_right (Int.le_of_lt (Int.not_le.mp hlt))).symm

end Config

/-- The answer to a request for the revocation of a token, with the caches after it, is right: the
token of another client is refused, and all others are accepted; the client's own token has the
record of its lineage extended to a deadline, if it has not expired; and there is no other
effect. -/
structure Codec.RevokesExactly (codec : Codec) (clock : Instant) (token client : String)
    (deadline : Deadline) (before : Caches) (answer : Caches × Except GrantError Unit) : Prop where
  mismatch_iff : answer.2 = .error (.invalidGrant .clientMismatch) ↔
    ∃ claims, codec.Revocable clock token claims ∧ claims.common.clientId.text ≠ client
  ok_iff : answer.2 = .ok () ↔
    ¬∃ claims, codec.Revocable clock token claims ∧ claims.common.clientId.text ≠ client
  revokes : ∀ claims, codec.Revocable clock token claims → claims.common.clientId.text = client →
    clock < claims.common.expiresAt → before.RevokesOnly answer.1 claims.common.lineage deadline
  keeps : (¬∃ claims, codec.Revocable clock token claims ∧ claims.common.clientId.text = client ∧
    clock < claims.common.expiresAt) → answer.1 = before
  replay : answer.1.replay = before.replay

namespace Service

/-- What there is to revoke after a token was parsed: nothing, unless it could be parsed or the
sealer is broken. -/
def revocableOf : Except CodecError TokenClaims → Except GrantError (Option TokenClaims)
  | .ok claims => .ok (some claims)
  | .error (.sealing error) =>
    if error.isRejection then .ok none else .error (.internal error.message)
  | .error _ => .ok none

/-- Revoking where a token is tried as two types in turn. -/
def revokeTrying {σ : Type} (service : Service σ) (first second : TokenType) (clock : Instant)
    (token client : String) (state : σ) : σ × Except GrantError Unit :=
  match revocableOf (service.codec.tryParse clock token first second) with
  | .error error => (state, .error error)
  | .ok none => (state, .ok ())
  | .ok (some claims) =>
    if claims.common.clientId.text ≠ client then (state, .error (.invalidGrant .clientMismatch))
    else if claims.common.isExpiredAt clock then (state, .ok ())
    else
      service.stores.revoke state claims.common.lineage
        (clock.reading.after service.config.lifetimes.refreshToken)

section Order

/-- What there is to revoke does not depend on the order in which a token is tried as two types. -/
theorem revocableOf_tryParse_comm (codec : Codec) (clock : Instant) (token : String)
    (first second : TokenType) : revocableOf (codec.tryParse clock token first second) =
      revocableOf (codec.tryParse clock token second first) := by
  rcases codec.parse_consistent clock token with
    ⟨⟨error, hne, hrefused⟩, -⟩ | ⟨-, found, hfound, -⟩
  · rw [Codec.tryParse_of_refused hne hrefused, Codec.tryParse_of_refused hne hrefused]
  · by_cases hfirst : first = found
    · by_cases hsecond : second = found
      · rw [hfirst, hsecond]
      · rw [hfirst, Codec.tryParse_own hfound, Codec.tryParse_of_ne hfound hsecond]
    · by_cases hsecond : second = found
      · rw [hsecond, Codec.tryParse_own hfound, Codec.tryParse_of_ne hfound hfirst]
      · -- Tried as two types that it is not of, the token leads to errors that are both ignored.
        rw [Codec.tryParse_of_ne hfound hfirst, Codec.tryParse_of_ne hfound hsecond,
          hfound.others first hfirst, hfound.others second hsecond]
        rfl

variable {σ : Type} (service : Service σ) (clock : Instant) (token client : String)

/-- What a request is about is found by trying the token as a refresh token first. -/
theorem revocable_eq_revocableOf : service.revocable clock token =
    revocableOf (service.codec.tryParse clock token .refreshToken .accessToken) := by
  rw [revocable, Codec.tryParse, Codec.parse_refreshToken, Codec.parse_accessToken]
  cases service.codec.parseRefresh clock token with
  | ok refresh => rfl
  | error error =>
    simp only [Outcome.map_error]
    split
    · cases service.codec.parseAccess clock token with
      | ok access => rfl
      | error error => cases error <;> rfl
    · cases error <;> rfl

/-- Revoking tries the token as a refresh token first. -/
theorem revoke_eq_revokeTrying (state : σ) : service.revoke clock token client state =
    service.revokeTrying .refreshToken .accessToken clock token client state := by
  rewrite [revoke, revokeTrying, revocable_eq_revocableOf]
  rfl

/-- Revoking could as well try the token as an access token first. -/
theorem revokeTrying_comm (first second : TokenType) (state : σ) :
    service.revokeTrying first second clock token client state =
      service.revokeTrying second first clock token client state := by
  rw [revokeTrying, revokeTrying, revocableOf_tryParse_comm]

end Order

section Effect

variable {config : Config} {codec : Codec} {ring : Keyring} {clock : Instant}
  {token client : String} {claims : TokenClaims} {caches : Caches}

/-- A token that cannot be revoked leaves nothing to revoke, as the sealer of a ring is not
broken. -/
theorem revocable_of_forall_not (config : Config) (hring : ring.Reachable)
    (h : ∀ claims, ¬(Codec.ofRing Gcm.aead ring).Revocable clock token claims) :
    (ofRing config ring).revocable clock token = .ok none := by
  have htry := (Codec.ofRing Gcm.aead ring).tryParse_eq_or clock token .refreshToken .accessToken
  rw [revocable_eq_revocableOf]
  change revocableOf ((Codec.ofRing Gcm.aead ring).tryParse clock token _ _) = _
  cases hparse : (Codec.ofRing Gcm.aead ring).tryParse clock token .refreshToken .accessToken with
  | ok claims =>
    rw [hparse] at htry
    exact absurd (htry.imp Eq.symm Eq.symm) (h claims)
  | error error =>
    cases error with
    | sealing error =>
      have hrejection : error.isRejection = true := by
        rw [hparse] at htry
        rcases htry with htry | htry
        · exact Codec.isRejection_of_parse hring htry.symm
        · exact Codec.isRejection_of_parse hring htry.symm
      exact if_pos hrejection
    | parse error => rfl
    | encoding detail => rfl

/-- Revoking has exactly the effect that it is to have. -/
theorem revokesExactly (config : Config) (hring : ring.Reachable) (clock : Instant)
    (token client : String) (caches : Caches) :
    (Codec.ofRing Gcm.aead ring).RevokesExactly clock token client (config.horizon clock) caches
      ((ofRing config ring).revoke clock token client caches) := by
  by_cases hrevocable : ∃ claims, (Codec.ofRing Gcm.aead ring).Revocable clock token claims
  · obtain ⟨claims, hclaims⟩ := hrevocable
    have hmismatch := hclaims.exists_and_iff fun claims => claims.common.clientId.text ≠ client
    have heffect := hclaims.exists_and_iff fun claims =>
      claims.common.clientId.text = client ∧ clock < claims.common.expiresAt
    obtain ⟨hparse, htype⟩ := Codec.revocable_iff.mp hclaims
    rw [ofRing, @revoke_eq_ite_of_parse _ config caches clock token claims hparse (fun _ => hparse)
      htype]
    by_cases hclient : claims.common.clientId.text = client
    · rw [if_neg (not_not_intro hclient)]
      by_cases hexpired : claims.common.expiresAt ≤ clock
      · rw [if_pos hexpired]
        refine ⟨by simp [hmismatch, hclient], by simp [hmismatch, hclient], ?_, fun _ => rfl, rfl⟩
        intro other hother _ hunexpired
        obtain rfl := hclaims.unique hother
        exact absurd hexpired (Int.not_le.mpr hunexpired)
      · rw [if_neg hexpired]
        refine ⟨by simp [hmismatch, hclient], by simp [hmismatch, hclient], ?_, ?_, rfl⟩
        · intro other hother _ _
          obtain rfl := hclaims.unique hother
          exact ⟨rfl, fun lineage => RevocationCache.find?_revokeUntil _ _ lineage _⟩
        · intro hnone
          exact absurd (heffect.mpr ⟨hclient, Int.not_le.mp hexpired⟩) hnone
    · rw [if_pos hclient]
      refine ⟨by simp [hmismatch, hclient], by simp [hmismatch, hclient], ?_, fun _ => rfl, rfl⟩
      intro other hother hown _
      obtain rfl := hclaims.unique hother
      exact absurd hown hclient
  · have hnone := not_exists.mp hrevocable
    rw [revoke, revocable_of_forall_not config hring hnone]
    exact ⟨by simp [hnone], by simp [hnone], fun claims hclaims => absurd hclaims (hnone claims),
      fun _ => rfl, rfl⟩

end Effect

/-- Revoking a token has exactly the effect that it is to have, up to when a refresh token minted
now would expire, which is the last instant where the sum is out of range. A token that is a code,
that is not unsealed, or whose payload is no claims is accepted without effect, and every other
token can be revoked with its claims. Those of a token that the codec issued are unexpired, so the
check of their expiry never holds a revocation back. The order in which the two types are tried
makes no difference. -/
theorem revocation_exact (config : Config) {ring : Keyring} (hring : ring.Reachable)
    (clock : Instant) (token : String) :
    (∀ client caches, (Codec.ofRing Gcm.aead ring).RevokesExactly clock token client
      (config.horizon clock) caches ((ofRing config ring).revoke clock token client caches)) ∧
    (config.horizon clock =
        ((clock.addSigned? config.lifetimes.refreshToken).getD Instant.last).deadline ∧
      (config.horizon clock).nanos =
        min (clock.nanos + config.lifetimes.refreshToken.nanos) Time.lastNanos) ∧
    ((Codec.ofRing Gcm.aead ring).Unrevocable clock token ↔
      ∀ claims, ¬(Codec.ofRing Gcm.aead ring).Revocable clock token claims) ∧
    ((Codec.ofRing Gcm.aead ring).Unrevocable clock token → ∀ client caches,
      (ofRing config ring).revoke clock token client caches = (caches, .ok ())) ∧
    ((Codec.ofRing Gcm.aead ring).Issued token → ∀ claims,
      (Codec.ofRing Gcm.aead ring).Revocable clock token claims →
        clock < claims.common.expiresAt) ∧
    (∀ client caches,
      (ofRing config ring).revokeTrying .refreshToken .accessToken clock token client caches =
        (ofRing config ring).revoke clock token client caches ∧
      (ofRing config ring).revokeTrying .accessToken .refreshToken clock token client caches =
        (ofRing config ring).revoke clock token client caches) := by
  refine ⟨revokesExactly config hring clock token,
    ⟨config.horizon_eq_addSigned? clock, config.horizon_nanos clock⟩, Codec.unrevocable_iff, ?_,
    fun hissued claims hclaims => hclaims.lt_expiresAt hring hissued, ?_⟩
  · intro hunrevocable client caches
    have hnone := Codec.unrevocable_iff.mp hunrevocable
    rw [revoke, revocable_of_forall_not config hring hnone]
  · intro client caches
    have htrying := revoke_eq_revokeTrying (ofRing config ring) clock token client caches
    exact ⟨htrying.symm, (revokeTrying_comm _ _ _ _ _ _ _).trans htrying.symm⟩

/-- The owner of the sample access token revokes it: its lineage is recorded for as long as a
refresh token lives. A stranger is refused, and once the token has expired nothing happens any
more. -/
theorem revocation_exact_sample :
    ∃ token, Codec.sampleCodec.issue Codec.sampleNonce (.access sampleAccess) = .ok token ∧
      (sampleService.revoke sampleClock token "client" {}).2 = .ok () ∧
      Caches.RevokesOnly {} (sampleService.revoke sampleClock token "client" {}).1
        sampleAccess.common.lineage (sampleConfig.horizon sampleClock) ∧
      (sampleService.revoke sampleClock token "stranger" {}).2 =
        .error (.invalidGrant .clientMismatch) ∧
      (sampleService.revoke sampleClock token "stranger" {}).1 = {} ∧
      sampleService.revoke sampleAccess.common.expiresAt token "client" {} = ({}, .ok ()) := by
  obtain ⟨token, hissue⟩ := Codec.exists_issue_sampleAccess
  have hrevocable : Codec.sampleCodec.Revocable sampleClock token (.access sampleAccess) :=
    .inr (Codec.parse_sampleAccess hissue (by decide))
  have hexpired (claims : TokenClaims) :
      ¬Codec.sampleCodec.Revocable sampleAccess.common.expiresAt token claims := by
    have hrefused (type : TokenType) :=
      Codec.parse_of_issue Gcm.aead_seals Codec.sampleRing_reachable.sound hissue
        sampleAccess.common.expiresAt type
    rintro (h | h)
    · exact absurd ((hrefused _).symm.trans h) nofun
    · exact absurd ((hrefused _).symm.trans h) nofun
  obtain ⟨hexactly, -⟩ :=
    revocation_exact sampleConfig Codec.sampleRing_reachable sampleClock token
  obtain ⟨-, -, hunrevocable, haccepted, -⟩ :=
    revocation_exact sampleConfig Codec.sampleRing_reachable sampleAccess.common.expiresAt token
  have hown := hexactly "client" {}
  have hstranger := hexactly "stranger" {}
  refine ⟨token, hissue, ?_, ?_, ?_, ?_, haccepted (hunrevocable.mpr hexpired) "client" {}⟩
  · refine hown.ok_iff.mpr ?_
    rintro ⟨claims, hclaims, hclient⟩
    obtain rfl := hrevocable.unique hclaims
    exact hclient rfl
  · exact hown.revokes _ hrevocable rfl (by decide)
  · exact hstranger.mismatch_iff.mpr ⟨_, hrevocable, by decide⟩
  · refine hstranger.keeps ?_
    rintro ⟨claims, hclaims, hclient, -⟩
    obtain rfl := hrevocable.unique hclaims
    exact absurd hclient (by decide)

end Service

end OpaqueTokens
