import OpaqueTokens.Proofs.Grant.RevokedLineage

/-!
# Codes of revoked lineages

Revoking a lineage is meant to reject its code along with its tokens. Access and refresh tokens are
looked up among the revocations, but codes are looked up among the marks only. So a code that was
not used is redeemed as if its lineage were not revoked, and new tokens are minted in the lineage.
-/

namespace OpaqueTokens

open Crypto (Gcm.aead Gcm.maxTextLength)
open Requirement
open Time (Instant Reading)

namespace Service

/-- A code that is not marked is exchanged whatever is revoked, its own lineage or any other, if its
client presents it before it expires, with the right address and verifier and with lifetimes that
tokens can be minted with. The tokens are of the lineage of the code, and the same in all cases. -/
theorem code_exchanged_whatever_is_revoked {config : Config} {ring : Keyring}
    (hring : ring.Reachable) {clock : Instant} {now : Reading} {draw : Draw}
    {request : CodeExchange} {code : CodeClaims} {replay : ReplayCache}
    (hpresents : request.Presents (Codec.ofRing Gcm.aead ring) clock now.universal code)
    (hunmarked : replay.isMarked code.common.id clock = false)
    (hredeems : ∀ requirement ∈ redemptionRequirements config now.universal request (.code code),
      requirement.met)
    (hmints : (ofRing config ring).MintsWithin Gcm.maxTextLength now.universal draw code) :
    ∃ set, set.claims.common.lineage = code.common.lineage ∧
      ∀ revocation, (ofRing config ring).exchange clock now draw request ⟨replay, revocation⟩ =
        (⟨replay.put code.common.id code.common.expiresAt, revocation⟩, .ok set) := by
  have hbuilt : code.common.Built := by
    have hparse : (Codec.ofRing Gcm.aead ring).parse clock request.code .authorizationCode =
        .ok (.code code) := by
      rw [Codec.parse_authorizationCode, hpresents.reads, Outcome.map_ok]
    exact Codec.built_of_parse hparse
  obtain ⟨set, hset⟩ := (decides_redeem hbuilt.wellFormed (hmints.sealsMinted hring)).ok_iff.mpr
    hredeems
  refine ⟨set, lineage_of_mint (mint_of_redeem hset), fun revocation => ?_⟩
  rw [ofRing, exchange_of_unmarked hpresents hunmarked, hset]
  rfl

/-- The sample code is exchanged although its lineage is revoked for good. -/
theorem code_exchanged_whatever_is_revoked_sample :
    ∃ token set, Codec.sampleCodec.issue Codec.sampleNonce (.code Codec.sampleCode) = .ok token ∧
      (sampleService.exchange sampleClock sampleClock.reading sampleDraw (sampleRequest token)
        ⟨.empty, RevocationCache.empty.revokeUntil Codec.sampleCode.common.lineage
          Instant.last.deadline⟩).2 = .ok set := by
  obtain ⟨token, hissue⟩ := Codec.exists_issue_sample
  have hpresents := presents_sample hissue (by decide : sampleClock.seconds < _)
    (by decide : sampleClock < _) (sampleRequest token).redirectUri
  obtain ⟨set, -, hset⟩ := @code_exchanged_whatever_is_revoked sampleConfig Codec.sampleRing
    Codec.sampleRing_reachable sampleClock sampleClock.reading sampleDraw (sampleRequest token)
    Codec.sampleCode .empty hpresents rfl (redemption_met_sample token (by decide))
    mintsWithin_sample
  exact ⟨token, set, hissue, congrArg Prod.snd (hset _)⟩

/-- The sample code is issued by the sample service. -/
theorem issueCode_sample {token : String}
    (h : Codec.sampleCodec.issue Codec.sampleNonce (.code Codec.sampleCode) = .ok token) :
    sampleService.issueCode Codec.sampleNonce Codec.sampleCode = .ok token := by
  rw [issueCode, if_neg (by decide), if_neg (by decide)]
  exact Outcome.mapError_eq_ok_iff.mpr h

/-- A run of a service that starts without marks and records: a code and an access token are issued
in one lineage, the client revokes the access token, which revokes the lineage, and then redeems the
code for new tokens. -/
theorem revoked_code_exchanged_sample :
    ∃ token access set after,
      sampleService.issueCode Codec.sampleNonce Codec.sampleCode = .ok token ∧
      sampleService.issueAccess Codec.sampleNonce sampleAccess = .ok access ∧
      sampleService.after {} [⟨sampleClock, .issueCode Codec.sampleNonce Codec.sampleCode⟩,
        ⟨sampleClock, .issueAccess Codec.sampleNonce sampleAccess⟩,
        ⟨sampleClock, .revoke access "client"⟩] = after ∧
      after.revocation.isRevoked Codec.sampleCode.common.lineage sampleClock = true ∧
      after.replay.isMarked Codec.sampleCode.common.id sampleClock = false ∧
      (sampleService.exchange sampleClock sampleClock.reading sampleDraw (sampleRequest token)
        after).2 = .ok set := by
  obtain ⟨token, hissue⟩ := Codec.exists_issue_sample
  obtain ⟨access, haccess⟩ := Codec.exists_issue_sampleAccess
  have hparse : Codec.sampleCodec.parse sampleClock access (TokenClaims.access sampleAccess).type =
      .ok (.access sampleAccess) := Codec.parse_sampleAccess haccess (by decide)
  have hrevoke := @revoke_of_parse Codec.sampleCodec sampleConfig {} sampleClock access _ hparse
    (fun _ => hparse) (by decide) (by decide)
  have hunmarked (revocation : RevocationCache) : (Caches.mk .empty revocation).replay.isMarked
      Codec.sampleCode.common.id sampleClock = false := rfl
  have hlapse : sampleClock.deadline < sampleConfig.horizon sampleClock := by decide
  have hafter : sampleService.after {}
      [⟨sampleClock, .issueCode Codec.sampleNonce Codec.sampleCode⟩,
      ⟨sampleClock, .issueAccess Codec.sampleNonce sampleAccess⟩,
      ⟨sampleClock, .revoke access "client"⟩] = ⟨.empty, RevocationCache.empty.revokeUntil
        Codec.sampleCode.common.lineage (sampleConfig.horizon sampleClock)⟩ := by
    simp only [Service.after, List.foldl_cons, List.foldl_nil, perform]
    exact congrArg Prod.fst hrevoke
  obtain ⟨set, hset⟩ := @exists_set_sample token hissue ⟨.empty, RevocationCache.empty.revokeUntil
    Codec.sampleCode.common.lineage (sampleConfig.horizon sampleClock)⟩ sampleClock sampleClock
    (by decide) (by decide) rfl (by decide) mintsWithin_sample
  refine ⟨token, access, set, _, issueCode_sample hissue, ?_, hafter, ?_, hunmarked _,
    congrArg Prod.snd hset⟩
  · rw [issueAccess, sealClaims]
    exact Outcome.mapError_eq_ok_iff.mpr haccess
  · exact (RevocationCache.holdsUntil_revokeUntil .empty Codec.sampleCode.common.lineage
      _).isRevoked hlapse

end Service

end OpaqueTokens
