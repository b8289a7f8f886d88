import OpaqueTokens.Proofs.Claims.Nesting
import OpaqueTokens.Proofs.Grant.Effects
import OpaqueTokens.Proofs.Reading

/-!
# Lineages do not interfere

Whatever a call does to the caches is about the lineage of the token that it presents and, if that
is a code, about its identifier. So the answers about one lineage depend on the marks of the codes
of that lineage and on its own revocation, and calls that are about other lineages can be left out
of a run, and clean-ups too: in states that agree on what the lineage depends on, calls about the
lineage are answered alike and lead to such states again. The clock never goes back, and no code of
another lineage has an identifier of a code of the lineage.
-/

namespace OpaqueTokens

open Crypto (Gcm.aead)
open Time (Deadline Instant Reading Span)

/-- A call is about a lineage: it issues claims of the lineage, or presents a token of it, which may
have expired. -/
inductive Call.Concerns (call : Call) (codec : Codec) (lineage : TokenId) : Prop where
  | issueCode {nonce : Nonce} {code : CodeClaims} (hcall : call.operation = .issueCode nonce code)
    (hlineage : code.common.lineage = lineage)
  | issueAccess {nonce : Nonce} {access : AccessClaims}
    (hcall : call.operation = .issueAccess nonce access)
    (hlineage : access.common.lineage = lineage)
  | presents {claims : TokenClaims} (h : call.Presents codec claims)
    (hlineage : claims.common.lineage = lineage)

/-- What a call presents is of the lineage that the call is about. -/
theorem Call.Concerns.lineage_eq {call : Call} {ring : Keyring} (hring : ring.Reachable)
    {lineage : TokenId} (h : call.Concerns (Codec.ofRing Gcm.aead ring) lineage)
    {claims : TokenClaims} (hpresents : call.Presents (Codec.ofRing Gcm.aead ring) claims) :
    claims.common.lineage = lineage := by
  obtain ⟨token, htoken, hreads⟩ := hpresents
  cases h with
  | presents hother hlineage =>
    obtain ⟨other, hotherToken, hotherReads⟩ := hother
    obtain rfl := Option.some.inj (htoken.symm.trans hotherToken)
    rw [← hlineage, hreads.unique hring hotherReads]
  | issueCode hcall | issueAccess hcall =>
    rw [hcall] at htoken
    cases htoken

/-- Caches agree on the marks of some identifiers and on the revocation of a lineage, from an
instant on. -/
structure Caches.AgreeOn (ids : TokenId → Prop) (lineage : TokenId) (since : Instant)
    (a b : Caches) : Prop where
  marks : ∀ id, ids id → ∀ clock, since ≤ clock →
    a.replay.isMarked id clock = b.replay.isMarked id clock
  revocation : ∀ clock, since ≤ clock →
    a.revocation.isRevoked lineage clock = b.revocation.isRevoked lineage clock

namespace Caches.AgreeOn

variable {ids : TokenId → Prop} {lineage : TokenId} {since : Instant} {a b c : Caches}

theorem refl (ids : TokenId → Prop) (lineage : TokenId) (since : Instant) (a : Caches) :
    AgreeOn ids lineage since a a :=
  ⟨fun _ _ _ _ => rfl, fun _ _ => rfl⟩

theorem symm (h : AgreeOn ids lineage since a b) : AgreeOn ids lineage since b a :=
  ⟨fun id hid clock hclock => (h.marks id hid clock hclock).symm,
    fun clock hclock => (h.revocation clock hclock).symm⟩

theorem trans (h : AgreeOn ids lineage since a b) (hnext : AgreeOn ids lineage since b c) :
    AgreeOn ids lineage since a c :=
  ⟨fun id hid clock hclock => (h.marks id hid clock hclock).trans (hnext.marks id hid clock hclock),
    fun clock hclock => (h.revocation clock hclock).trans (hnext.revocation clock hclock)⟩

/-- What agrees from an instant on agrees from a later one on. -/
theorem later (h : AgreeOn ids lineage since a b) {clock : Instant} (hclock : since ≤ clock) :
    AgreeOn ids lineage clock a b :=
  ⟨fun id hid later hlater => h.marks id hid later (Int.le_trans hclock hlater),
    fun later hlater => h.revocation later (Int.le_trans hclock hlater)⟩

/-- Caches go on agreeing when a code is used in both. -/
theorem used (h : AgreeOn ids lineage since a b) (code : CodeClaims) :
    AgreeOn ids lineage since (a.used code) (b.used code) where
  marks id hid clock hclock := by
    rw [Caches.used, Caches.used, ReplayCache.isMarked_put, ReplayCache.isMarked_put,
      h.marks id hid clock hclock]
  revocation := h.revocation

/-- Caches go on agreeing when their lineage is revoked in both. -/
theorem revoked (h : AgreeOn ids lineage since a b) (deadline : Deadline) :
    AgreeOn ids lineage since { a with revocation := a.revocation.revokeUntil lineage deadline }
      { b with revocation := b.revocation.revokeUntil lineage deadline } where
  marks := h.marks
  revocation clock hclock := by
    rw [RevocationCache.isRevoked_revokeUntil, RevocationCache.isRevoked_revokeUntil,
      h.revocation clock hclock]

/-- Caches go on agreeing when a code of their lineage is used again in both. -/
theorem replayed (h : AgreeOn ids lineage since a b) (replayRevocation : Option Span)
    (now : Reading) {code : CodeClaims} (hcode : code.common.lineage = lineage) :
    AgreeOn ids lineage since (a.replayed replayRevocation now code)
      (b.replayed replayRevocation now code) := by
  subst hcode
  cases replayRevocation with
  | none => exact h
  | some span => exact h.revoked (now.after span)

/-- A call that is not about the lineage and presents no code with one of the identifiers keeps all
that agreement is about. -/
theorem of_effect {codec : Codec} {call : Call} (h : call.Effect codec a b)
    (hcall : ¬call.Concerns codec lineage)
    (hids : ∀ code, call.Presents codec (.code code) → ¬ids code.common.id) :
    AgreeOn ids lineage call.moments.lookup b a := by
  cases h with
  | none => exact refl ids lineage call.moments.lookup a
  | @used code hpresents hunmarked =>
    refine ⟨fun id hid clock hclock => ?_, fun clock hclock => rfl⟩
    have hne : id ≠ code.common.id := fun heq => hids code hpresents (heq ▸ hid)
    rw [Caches.used, ReplayCache.isMarked_put, if_neg hne]
  | @revoked claims hpresents deadline =>
    refine ⟨fun id hid clock hclock => rfl, fun clock hclock => ?_⟩
    have hne : lineage ≠ claims.common.lineage := fun heq =>
      hcall (.presents hpresents heq.symm)
    rw [RevocationCache.isRevoked_revokeUntil, if_neg hne]
  | cleanedReplay =>
    exact ⟨fun id hid clock hclock => a.replay.isMarked_cleanup id hclock, fun clock hclock => rfl⟩
  | cleanedRevocation =>
    exact ⟨fun id hid clock hclock => rfl,
      fun clock hclock => a.revocation.isRevoked_cleanup lineage hclock⟩

end Caches.AgreeOn

namespace Service

open Caches (AgreeOn)

variable {config : Config} {ring : Keyring} {call : Call} {ids : TokenId → Prop}
  {lineage : TokenId} {a b : Caches} {token : String}

/-- Two outcomes are alike: the answers are the same, and the caches agree. -/
def Alike {α : Type} (ids : TokenId → Prop) (lineage : TokenId) (since : Instant)
    (x y : Caches × α) : Prop :=
  x.2 = y.2 ∧ AgreeOn ids lineage since x.1 y.1

/-- Outcomes that are alike stay alike when the same is made of both answers. -/
theorem Alike.map {α β : Type} {since : Instant} {x y : Caches × α}
    (h : Alike ids lineage since x y) (f : α → β) :
    Alike ids lineage since (x.1, f x.2) (y.1, f y.2) :=
  ⟨congrArg f h.1, h.2⟩

/-- A call about a lineage validates a grant alike in caches that agree. -/
theorem alike_validate (hring : ring.Reachable) (h : AgreeOn ids lineage call.moments.lookup a b)
    (hcall : call.Concerns (Codec.ofRing Gcm.aead ring) lineage)
    (htoken : token ∈ call.operation.token?)
    (hids : ∀ code, call.Presents (Codec.ofRing Gcm.aead ring) (.code code) → ids code.common.id)
    (replayRevocation : Option Span) (now : Reading) (kind : GrantKind) (client : String) :
    Alike ids lineage call.moments.lookup
      ((GrantValidator.inMemory (.ofRing Gcm.aead ring) replayRevocation).validate call.moments now
        token kind client a)
      ((GrantValidator.inMemory (.ofRing Gcm.aead ring) replayRevocation).validate call.moments now
        token kind client b) := by
  cases hparse : (Codec.ofRing Gcm.aead ring).parse call.moments.unsealing token kind.tokenType with
  | error error =>
    rw [GrantValidator.validate_of_error _ _ _ _ _ _ hparse,
      GrantValidator.validate_of_error _ _ _ _ _ _ hparse]
    exact ⟨rfl, h⟩
  | ok claims =>
    have hpresents : call.Presents (Codec.ofRing Gcm.aead ring) claims :=
      ⟨token, htoken, _, _, hparse⟩
    have hlineage := hcall.lineage_eq hring hpresents
    rw [GrantValidator.validate_of_parse _ _ _ _ _ _ hparse,
      GrantValidator.validate_of_parse _ _ _ _ _ _ hparse]
    cases claims with
    | code code =>
      have hmarks := h.marks _ (hids code hpresents) call.moments.lookup (Int.le_refl _)
      rw [GrantValidator.validateClaims_code, GrantValidator.validateClaims_code, hmarks]
      split
      · exact ⟨rfl, h⟩
      · split
        · exact ⟨rfl, h⟩
        · split
          · exact ⟨rfl, h.replayed replayRevocation now hlineage⟩
          · exact ⟨rfl, h.used code⟩
    | refresh refresh =>
      have hlineage : refresh.common.lineage = lineage := hlineage
      rw [GrantValidator.validateClaims_refresh, GrantValidator.validateClaims_refresh, hlineage,
        h.revocation call.moments.lookup (Int.le_refl _)]
      exact ⟨rfl, h⟩
    | access access => exact absurd hparse (kind.parse_ne_access access)

/-- A call about a lineage validates an access token alike in caches that agree. -/
theorem validateAccess_eq_of_agreeOn (hring : ring.Reachable)
    (h : AgreeOn ids lineage call.moments.lookup a b)
    (hcall : call.Concerns (Codec.ofRing Gcm.aead ring) lineage)
    (htoken : token ∈ call.operation.token?) (now : Instant) :
    (ofRing config ring).validateAccess call.moments now token a =
      (ofRing config ring).validateAccess call.moments now token b := by
  have hvalidate (caches : Caches) :
      (ofRing config ring).validateAccess call.moments now token caches =
        (AccessValidator.inMemory (.ofRing Gcm.aead ring)).validate call.moments now token
          caches := rfl
  rw [hvalidate, hvalidate, AccessValidator.validate_eq, AccessValidator.validate_eq]
  cases hparse : (Codec.ofRing Gcm.aead ring).parseAccess call.moments.unsealing token with
  | error error => rfl
  | ok access =>
    have hpresents : call.Presents (Codec.ofRing Gcm.aead ring) (.access access) :=
      ⟨token, htoken, _, _, Codec.parseAccess_eq_ok_iff.mp hparse⟩
    have hlineage : access.common.lineage = lineage := hcall.lineage_eq hring hpresents
    rw [Outcome.mapError_ok, Outcome.bind_ok, Outcome.bind_ok, AccessValidator.check,
      AccessValidator.check, hlineage, h.revocation call.moments.lookup (Int.le_refl _)]

/-- A call about a lineage revokes a token alike in caches that agree. -/
theorem alike_revoke (hring : ring.Reachable) (h : AgreeOn ids lineage call.moments.lookup a b)
    (hcall : call.Concerns (Codec.ofRing Gcm.aead ring) lineage)
    (htoken : token ∈ call.operation.token?) (client : String) :
    Alike ids lineage call.moments.lookup
      ((ofRing config ring).revoke call.moments token client a)
      ((ofRing config ring).revoke call.moments token client b) := by
  unfold revoke
  split
  · exact ⟨rfl, h⟩
  · exact ⟨rfl, h⟩
  · rename_i claims hclaims
    obtain rfl := hcall.lineage_eq hring ⟨token, htoken, reads_of_revocable hclaims⟩
    dsimp only
    split
    · exact ⟨rfl, h⟩
    · split
      · exact ⟨rfl, h⟩
      · exact ⟨rfl, h.revoked _⟩

/-- A call about a lineage is answered alike in caches that agree. -/
theorem alike_perform (hring : ring.Reachable) (h : AgreeOn ids lineage call.moments.lookup a b)
    (hcall : call.Concerns (Codec.ofRing Gcm.aead ring) lineage)
    (hids : ∀ code, call.Presents (Codec.ofRing Gcm.aead ring) (.code code) → ids code.common.id) :
    Alike ids lineage call.moments.lookup ((ofRing config ring).perform call a)
      ((ofRing config ring).perform call b) := by
  obtain ⟨moments, operation⟩ := call
  cases operation with
  | exchange now draw request =>
    have hvalidate := alike_validate hring h hcall rfl hids
      (ofRing config ring).grantValidator.replayRevocation now .authorizationCode request.clientId
    exact hvalidate.map fun outcome =>
      Answer.set (outcome.bind ((ofRing config ring).redeem now.universal draw request))
  | validateGrant replayRevocation now token kind client =>
    exact (alike_validate hring h hcall rfl hids replayRevocation now kind client).map Answer.grant
  | refresh now draw request =>
    have hvalidate := alike_validate hring h hcall rfl hids
      (ofRing config ring).grantValidator.replayRevocation now .refreshToken request.clientId
    exact hvalidate.map fun outcome =>
      Answer.set (outcome.bind ((ofRing config ring).renew now.universal draw request))
  | validateAccess now token =>
    exact ⟨congrArg Answer.access (validateAccess_eq_of_agreeOn hring h hcall rfl now), h⟩
  | revoke token client => exact (alike_revoke hring h hcall rfl client).map Answer.revoked
  | issueCode | issueAccess => exact ⟨rfl, h⟩
  | cleanupReplay | cleanupRevocation =>
    cases hcall with
    | issueCode hissue | issueAccess hissue => cases hissue
    | presents hpresents =>
      obtain ⟨token, htoken, -⟩ := hpresents
      cases htoken

/-- Identifiers are those of the codes of a lineage that a run presents: the codes of the lineage
have one of them, and codes of other lineages have not. -/
def OwnIds (codec : Codec) (lineage : TokenId) (run : List Call) (ids : TokenId → Prop) : Prop :=
  ∀ call ∈ run, ∀ code, call.Presents codec (.code code) →
    (ids code.common.id ↔ code.common.lineage = lineage)

/-- A run and the same run without calls that are not about a lineage lead to caches that agree from
the next call on. -/
theorem agreeOn_after (hring : ring.Reachable) (caches : Caches) {kept : Call → Bool}
    {run : List Call} {next : Call} (horder : InOrder (run ++ [next]))
    (hids : OwnIds (Codec.ofRing Gcm.aead ring) lineage run ids)
    (hkept : ∀ call ∈ run, call.Concerns (Codec.ofRing Gcm.aead ring) lineage →
      kept call = true) :
    AgreeOn ids lineage next.moments.lookup ((ofRing config ring).after caches run)
      ((ofRing config ring).after caches (run.filter kept)) := by
  -- The induction is on the last call, when all that came before agrees from this call on.
  induction run using List.reverseRecOn generalizing next with
  | nil => exact .refl ids lineage next.moments.lookup caches
  | append_singleton run call ih =>
    have hpast : InOrder (run ++ [call]) := horder.sublist (List.sublist_append_left _ _)
    have hcall := ih hpast (fun other hother => hids other (List.mem_append_left _ hother))
      fun other hother => hkept other (List.mem_append_left _ hother)
    have hmem : call ∈ run ++ [call] := by simp
    refine AgreeOn.later ?_ (horder.lookup_le_last call (List.mem_append_left _ hmem))
    rw [after_append, List.filter_append, after_append]
    by_cases hconcerns : call.Concerns (Codec.ofRing Gcm.aead ring) lineage
    · -- The call is in both runs and does the same in both.
      have hown : ∀ code, call.Presents (Codec.ofRing Gcm.aead ring) (.code code) →
          ids code.common.id :=
        fun code hcode => (hids call hmem code hcode).mpr (hconcerns.lineage_eq hring hcode)
      rw [List.filter_cons_of_pos (hkept call hmem hconcerns)]
      exact (alike_perform hring hcall hconcerns hown).2
    · -- Whichever run the call is in, it makes no difference to what the lineage depends on.
      have hother : ∀ code, call.Presents (Codec.ofRing Gcm.aead ring) (.code code) →
          ¬ids code.common.id :=
        fun code hcode hid => hconcerns (.presents hcode ((hids call hmem code hcode).mp hid))
      have hperform (caches : Caches) : AgreeOn ids lineage call.moments.lookup
          ((ofRing config ring).perform call caches).1 caches :=
        .of_effect (effect_perform call caches) hconcerns hother
      by_cases hcallKept : kept call = true
      · rw [List.filter_cons_of_pos hcallKept]
        exact (hperform _).trans (hcall.trans (hperform _).symm)
      · rw [List.filter_cons_of_neg hcallKept]
        exact (hperform _).trans hcall

/-- Lineages do not interfere. In a run whose clock never goes back, where no code of another
lineage is presented with the identifier of a code of the lineage, all calls that are not about the
lineage may be left out, those about other lineages as well as clean-ups: every call about the
lineage stays, and its answer stays the same, also where its token has expired. -/
theorem lineages_do_not_interfere {config : Config} {ring : Keyring} (hring : ring.Reachable)
    (caches : Caches) {lineage : TokenId} {kept : Call → Bool} {run before rest : List Call}
    {call : Call} (hrun : run = before ++ call :: rest) (horder : InOrder run)
    (hids : ∀ own ∈ run, ∀ other ∈ run, ∀ code code',
      own.Presents (Codec.ofRing Gcm.aead ring) (.code code) →
      other.Presents (Codec.ofRing Gcm.aead ring) (.code code') → code.common.lineage = lineage →
        code'.common.id = code.common.id → code'.common.lineage = lineage)
    (hkept : ∀ other ∈ run, other.Concerns (Codec.ofRing Gcm.aead ring) lineage →
      kept other = true)
    (hcall : call.Concerns (Codec.ofRing Gcm.aead ring) lineage) :
    run.filter kept = before.filter kept ++ call :: rest.filter kept ∧
      ((ofRing config ring).perform call
          ((ofRing config ring).after caches (before.filter kept))).2 =
        ((ofRing config ring).perform call ((ofRing config ring).after caches before)).2 := by
  have hmem : call ∈ run := by simp [hrun]
  refine ⟨by rw [hrun, List.filter_append, List.filter_cons_of_pos (hkept call hmem hcall)], ?_⟩
  let ids (id : TokenId) : Prop := ∃ own ∈ run, ∃ code,
    own.Presents (Codec.ofRing Gcm.aead ring) (.code code) ∧
      code.common.lineage = lineage ∧ code.common.id = id
  have hown : OwnIds (Codec.ofRing Gcm.aead ring) lineage run ids := by
    intro other hother code hcode
    constructor
    · rintro ⟨own, hmemOwn, code', hcode', hlineage, hid⟩
      exact hids own hmemOwn other hother code' code hcode' hcode hlineage hid.symm
    · intro hlineage
      exact ⟨other, hother, code, hcode, hlineage, rfl⟩
  have hbefore : ∀ other ∈ before, other ∈ run := fun other hother => by simp [hrun, hother]
  have hagree : AgreeOn ids lineage call.moments.lookup ((ofRing config ring).after caches before)
      ((ofRing config ring).after caches (before.filter kept)) :=
    agreeOn_after hring caches (hrun ▸ horder).upto
      (fun other hother => hown other (hbefore other hother))
      fun other hother => hkept other (hbefore other hother)
  have hcallIds : ∀ code, call.Presents (Codec.ofRing Gcm.aead ring) (.code code) →
      ids code.common.id :=
    fun code hcode => (hown call hmem code hcode).mpr (hcall.lineage_eq hring hcode)
  exact (alike_perform hring hagree.symm hcall hcallIds).1

/-- A code of another lineage. -/
def otherCode : CodeClaims :=
  { Codec.sampleCode with
    common := { Codec.sampleCode.common with id := ⟨"code-2"⟩, lineage := ⟨"lineage-2"⟩ } }

/-- The sample client redeems a code of another lineage and the sample code, and the marks are
cleaned up. -/
def mixedRun (token other : String) : List Call :=
  [sampleCall other sampleClock, sampleCall token sampleClock, ⟨laterSampleClock, .cleanupReplay⟩]

/-- There are tokens of the sample code and of the code of the other lineage. -/
theorem exists_tokens_mixed :
    ∃ token other, Codec.sampleCodec.Carries token (.code Codec.sampleCode) ∧
      Codec.sampleCodec.Carries other (.code otherCode) := by
  have hotherBuilt : otherCode.common.Built := Claims.built_iff_wellFormed.mpr (by decide)
  obtain ⟨token, hissue⟩ := Codec.exists_issue_sample
  obtain ⟨other, hother⟩ : ∃ other,
      Codec.sampleCodec.issue Codec.sampleNonce (.code otherCode) = .ok other :=
    exists_issue_of_fitsCipher Codec.sampleNonce (by decide +kernel)
  refine ⟨token, other, Codec.carries_of_issue Codec.sampleCodec_faithful ?_ hissue,
    Codec.carries_of_issue Codec.sampleCodec_faithful ?_ hother⟩
  · exact @Claims.readable_of_depth (.code Codec.sampleCode) Codec.sampleCode_built
      Codec.sampleCode_integral (by decide +kernel)
  · exact @Claims.readable_of_depth (.code otherCode) hotherBuilt Codec.sampleCode_integral
      (by decide +kernel)

/-- What the calls with these tokens present is one of the two codes. -/
theorem presents_mixed {token other : String} {clock : Instant}
    (htoken : Codec.sampleCodec.Carries token (.code Codec.sampleCode))
    (hother : Codec.sampleCodec.Carries other (.code otherCode)) :
    ∀ call ∈ mixedRun token other ++ [sampleCall token clock], ∀ claims,
      call.Presents Codec.sampleCodec claims →
        (call.operation.token? = some token ∧ claims = .code Codec.sampleCode) ∨
          claims = .code otherCode := by
  have hcode {clock : Instant} {claims : TokenClaims}
      (h : (sampleCall token clock).Presents Codec.sampleCodec claims) :
      claims = .code Codec.sampleCode := by
    obtain ⟨_, ⟨⟩, hreads⟩ := h
    exact htoken.eq_of_reads hreads
  intro call hcall claims hpresents
  simp only [mixedRun, List.cons_append, List.nil_append, List.mem_cons, List.not_mem_nil,
    or_false] at hcall
  rcases hcall with rfl | rfl | rfl | rfl
  · obtain ⟨_, ⟨⟩, hreads⟩ := hpresents
    exact .inr (hother.eq_of_reads hreads)
  · exact .inl ⟨rfl, hcode hpresents⟩
  · obtain ⟨_, ⟨⟩, -⟩ := hpresents
  · exact .inl ⟨rfl, hcode hpresents⟩

/-- Whenever the sample code is presented for a second time, expired or not, it is answered as without
the code of the other lineage and without cleaning up. -/
theorem lineages_do_not_interfere_sample :
    ∃ token other, Codec.sampleCodec.Carries token (.code Codec.sampleCode) ∧
      Codec.sampleCodec.Carries other (.code otherCode) ∧
      ∀ clock, laterSampleClock ≤ clock →
        (sampleService.perform (sampleCall token clock)
            (sampleService.after {} [sampleCall token sampleClock])).2 =
          (sampleService.perform (sampleCall token clock)
            (sampleService.after {} (mixedRun token other))).2 := by
  obtain ⟨token, other, htoken, hother⟩ := exists_tokens_mixed
  have hunexpired : laterSampleClock < Codec.sampleCode.common.expiresAt := by decide
  have hne : other ≠ token := by
    rintro rfl
    have hsame := hother.eq_of_reads (htoken.reads hunexpired)
    have hids := congrArg (fun claims => claims.common.id) hsame
    exact absurd hids (by decide)
  let kept (call : Call) : Bool := call.operation.token? == some token
  have hfilter : (mixedRun token other).filter kept = [sampleCall token sampleClock] := by
    simp [kept, mixedRun, sampleCall, sampleRequest, Operation.token?, hne]
  refine ⟨token, other, htoken, hother, fun clock hclock => ?_⟩
  have hpresents := @presents_mixed token other clock htoken hother
  have horder : InOrder (mixedRun token other ++ [sampleCall token clock]) := by
    have hsecond : sampleClock ≤ sampleClock := Int.le_refl _
    have hcleanup : sampleClock ≤ laterSampleClock := by decide
    have hlast : sampleClock ≤ clock := Int.le_trans hcleanup hclock
    simp [mixedRun, sampleCall, hsecond, hcleanup, hclock, hlast]
  have hids : ∀ own ∈ mixedRun token other ++ [sampleCall token clock],
      ∀ call ∈ mixedRun token other ++ [sampleCall token clock], ∀ code code',
        own.Presents Codec.sampleCodec (.code code) →
        call.Presents Codec.sampleCodec (.code code') →
          code.common.lineage = Codec.sampleCode.common.lineage →
          code'.common.id = code.common.id →
            code'.common.lineage = Codec.sampleCode.common.lineage := by
    intro own hown call hcall code code' hcode hcode' hlineage hid
    rcases hpresents call hcall _ hcode' with ⟨-, hsame⟩ | hsame
    · rw [TokenClaims.code.inj hsame]
    · rcases hpresents own hown _ hcode with ⟨-, hsame'⟩ | hsame'
      · rw [TokenClaims.code.inj hsame, TokenClaims.code.inj hsame'] at hid
        exact absurd hid (by decide)
      · rw [TokenClaims.code.inj hsame'] at hlineage
        exact absurd hlineage (by decide)
  have hkept : ∀ call ∈ mixedRun token other ++ [sampleCall token clock],
      call.Concerns Codec.sampleCodec Codec.sampleCode.common.lineage → kept call = true := by
    intro call hcall hconcerns
    cases hconcerns with
    | presents h hlineage =>
      rcases hpresents call hcall _ h with ⟨hcallToken, -⟩ | rfl
      · simp [kept, hcallToken]
      · exact absurd hlineage (by decide)
    | issueCode hissue | issueAccess hissue =>
      simp only [mixedRun, List.cons_append, List.nil_append, List.mem_cons, List.not_mem_nil,
        or_false] at hcall
      rcases hcall with rfl | rfl | rfl | rfl <;> cases hissue
  obtain ⟨-, hanswer⟩ := @lineages_do_not_interfere sampleConfig Codec.sampleRing
    Codec.sampleRing_reachable {} _ kept _ (mixedRun token other) []
    (sampleCall token clock) rfl horder hids hkept
    (.presents ⟨token, rfl, htoken.reads hunexpired⟩ rfl)
  rw [hfilter] at hanswer
  exact hanswer

end Service

end OpaqueTokens
