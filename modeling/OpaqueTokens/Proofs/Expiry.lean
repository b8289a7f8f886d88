import OpaqueTokens.Proofs.Cache.ReplayHistory
import OpaqueTokens.Proofs.Codec

/-!
# One expiry and those who ask for it

Whether an expiry has been reached is asked in four places. The sealer compares its second with the
whole second of the clock, whoever holds the claims compares it with the clock to the nanosecond,
and the marks of used codes are compared with the clock once for the next use and once when they are
cleaned up, each time the other way round. The expiry of built claims is a whole second, and the
second of the clock is rounded down, also before 1970; therefore all of them answer alike at every
instant. Without the whole second they would not: a code could be opened whose mark has lapsed.
-/

namespace OpaqueTokens

open Crypto (Gcm.aead Gcm.aead_seals)
open Time (Instant)

namespace ReplayCache

variable {cache : ReplayCache} {id : TokenId} {validUntil held now : Instant}

/-- A first use is recorded with the end that it names. -/
theorem mem_marks_of_check (h : (cache.check id validUntil now).2 = true) :
    (id, validUntil) ∈ (cache.check id validUntil now).1.marks := by
  have hunmarked : ¬cache.isMarked id now = true := by simpa [check_snd] using h
  rw [check_eq, if_neg hunmarked]
  exact List.mem_cons_self

/-- A recorded mark lets the next use pass as a first one just when it has lapsed. -/
theorem check_snd_of_mem (h : (id, held) ∈ cache.marks) :
    (cache.check id validUntil now).2 = true ↔ held ≤ now := by
  have hfind : cache.find? id = some held := (Cache.lookup_eq_some_iff cache.distinct).mpr h
  have hlapsed : held ≤ now ↔ ¬now < held := Int.not_lt.symm
  simp [check_snd, isMarked, hfind, hlapsed]

end ReplayCache

namespace Claims

variable {claims : Claims} {now later : Instant}

/-- Claims are expired just when the instant that they name has been reached. -/
theorem isExpiredAt_iff : claims.isExpiredAt now = true ↔ claims.expiresAt ≤ now :=
  decide_eq_true_iff

/-- Expired claims have no seconds left. -/
theorem expiresIn_of_isExpiredAt (h : claims.isExpiredAt now = true) : claims.expiresIn now = 0 :=
  Instant.secondsUntil_of_le (isExpiredAt_iff.mp h)

/-- Claims that are not expired have as many seconds left as are whole. -/
theorem expiresIn_spec (h : ¬claims.isExpiredAt now = true) :
    (claims.expiresIn now : Int) * 1000000000 ≤ claims.expiresAt.nanos - now.nanos ∧
      claims.expiresAt.nanos - now.nanos < (claims.expiresIn now + 1 : Int) * 1000000000 :=
  Instant.secondsUntil_spec (Int.not_le.mp (isExpiredAt_iff.not.mp h))

end Claims

namespace Codec

variable {ring : Keyring} {nonce : Nonce} {claims : TokenClaims} {token : String}

/-- The sealer refuses a token that was issued as expired just when the clock has reached the second
of the expiry. -/
theorem unsealPayload_eq_expired_iff_of_issue (hring : ring.Reachable)
    (h : (ofRing Gcm.aead ring).issue nonce claims = .ok token) (clock : Instant) :
    ring.unsealPayload Gcm.aead clock token = .error .expired ↔
      claims.common.expiresAt.seconds ≤ clock.seconds := by
  have hseal := Outcome.mapError_eq_ok_iff.mp h
  have hunseal : ring.unsealPayload Gcm.aead clock token = _ :=
    hring.sound.faithful Gcm.aead_seals _ _ _ _ claims.common.expiresAt.seconds_bounds hseal clock
  rw [hunseal]
  split
  · rename_i hreached
    simp [hreached]
  · rename_i hunreached
    simp [hunreached]

end Codec

/-- All who ask whether the expiry of a token has been reached are answered alike at every instant.
The token was issued for built claims. The sealer refuses it as expired just when the whole second
of the clock has reached the second of the expiry; just then the claims are expired to the
nanosecond; and just then a mark that ends with the expiry has lapsed, so that the next use passes
as a first one, and is removed by cleaning up. A first use with this end records such a mark. Of
expired claims no seconds are left, of others as many as are whole, and never more at a later
instant. -/
theorem expiry_tests_agree {ring : Keyring} (hring : ring.Reachable) {claims : TokenClaims}
    (hbuilt : claims.common.Built) {nonce : Nonce} {token : String}
    (hissue : (Codec.ofRing Gcm.aead ring).issue nonce claims = .ok token) (now : Instant) :
    (ring.unsealPayload Gcm.aead now token = .error .expired ↔
      claims.common.expiresAt.seconds ≤ now.seconds) ∧
    (claims.common.expiresAt.seconds ≤ now.seconds ↔ claims.common.isExpiredAt now = true) ∧
    (∀ (cache : ReplayCache) (id : TokenId), (id, claims.common.expiresAt) ∈ cache.marks →
      (∀ validUntil, claims.common.isExpiredAt now = true ↔
        (cache.check id validUntil now).2 = true) ∧
      (claims.common.isExpiredAt now = true ↔
        (id, claims.common.expiresAt) ∉ (cache.cleanup now).1.marks)) ∧
    (∀ (cache : ReplayCache) (id : TokenId) (used : Instant),
      (cache.check id claims.common.expiresAt used).2 = true →
        (id, claims.common.expiresAt) ∈ (cache.check id claims.common.expiresAt used).1.marks) ∧
    (claims.common.isExpiredAt now = true → claims.common.expiresIn now = 0) ∧
    (¬claims.common.isExpiredAt now = true →
      (claims.common.expiresIn now : Int) * 1000000000 ≤
        claims.common.expiresAt.nanos - now.nanos ∧
      claims.common.expiresAt.nanos - now.nanos <
        (claims.common.expiresIn now + 1 : Int) * 1000000000) ∧
    ∀ later, now ≤ later → claims.common.expiresIn later ≤ claims.common.expiresIn now := by
  have hwhole := hbuilt.wellFormed.floor_expiresAt
  refine ⟨Codec.unsealPayload_eq_expired_iff_of_issue hring hissue now, ?_,
    fun cache id hmark => ⟨fun validUntil => ?_, ?_⟩, fun cache id used => ReplayCache.mem_marks_of_check,
    Claims.expiresIn_of_isExpiredAt, Claims.expiresIn_spec, fun later hlater => ?_⟩
  · rw [Instant.seconds_le_iff hwhole, Claims.isExpiredAt_iff]
  · rw [ReplayCache.check_snd_of_mem hmark, Claims.isExpiredAt_iff]
  · rw [ReplayCache.mem_cleanup_iff, Claims.isExpiredAt_iff]
    simp [hmark]
  · exact Instant.secondsUntil_le_of_le hlater _

/-- A code that expires five seconds before 1970. -/
def earlyCode : CodeClaims :=
  { Codec.sampleCode with common := { Codec.sampleCode.common with
      issuedAt := ⟨-65000000000, by decide, by decide⟩
      expiresAt := ⟨-5000000000, by decide, by decide⟩ } }

theorem earlyCode_built : earlyCode.common.Built :=
  Claims.built_iff_wellFormed.mpr (by decide)

/-- The last nanosecond before the early code expires. -/
def beforeEarly : Instant := ⟨-5000000001, by decide, by decide⟩

/-- The mark of the early code, made when the code was issued. -/
def earlyMarks : ReplayCache :=
  (ReplayCache.empty.check earlyCode.common.id earlyCode.common.expiresAt
    earlyCode.common.issuedAt).1

/-- In the last nanosecond before its expiry the early code is not refused as expired and its mark
is kept, though no whole second is left; once it expires it is refused, and cleaning up removes the
mark. -/
theorem expiry_tests_agree_sample :
    ∃ token, Codec.sampleCodec.issue Codec.sampleNonce (.code earlyCode) = .ok token ∧
      Codec.sampleRing.unsealPayload Gcm.aead beforeEarly token ≠ .error .expired ∧
      earlyCode.common.expiresIn beforeEarly = 0 ∧
      (earlyCode.common.id, earlyCode.common.expiresAt) ∈
        (earlyMarks.cleanup beforeEarly).1.marks ∧
      Codec.sampleRing.unsealPayload Gcm.aead earlyCode.common.expiresAt token =
        .error .expired ∧
      (earlyCode.common.id, earlyCode.common.expiresAt) ∉
        (earlyMarks.cleanup earlyCode.common.expiresAt).1.marks := by
  obtain ⟨token, hissue⟩ := Codec.exists_issue Gcm.aead_seals Codec.sampleRing_reachable.sound
    Codec.sampleNonce (.code earlyCode) (by decide +kernel)
  obtain ⟨hsealer, hsecond, hmarks, hrecords, -⟩ := @expiry_tests_agree _
    Codec.sampleRing_reachable (.code earlyCode) earlyCode_built _ _ hissue beforeEarly
  obtain ⟨hsealer', hsecond', hmarks', -⟩ := @expiry_tests_agree _
    Codec.sampleRing_reachable (.code earlyCode) earlyCode_built _ _ hissue
    earlyCode.common.expiresAt
  have hmark : (earlyCode.common.id, earlyCode.common.expiresAt) ∈ earlyMarks.marks :=
    hrecords .empty _ _ (by decide)
  have hbefore : ¬earlyCode.common.isExpiredAt beforeEarly = true := by decide
  have hreached : earlyCode.common.isExpiredAt earlyCode.common.expiresAt = true := by decide
  refine ⟨token, hissue, ?_, by decide, ?_, ?_, ?_⟩
  · exact fun h => hbefore (hsecond.mp (hsealer.mp h))
  · exact not_not.mp fun h => hbefore ((hmarks _ _ hmark).2.mpr h)
  · exact hsealer'.mpr (hsecond'.mpr hreached)
  · exact (hmarks' _ _ hmark).2.mp hreached

end OpaqueTokens
