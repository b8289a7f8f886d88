import OpaqueTokens.Proofs.Grant.Completeness

/-!
# Revoked lineages

A lineage that descends from one exchanged code is revoked for as long as its tokens can live. While
the record lasts, none of them is honoured; when it lapses, all of them have expired, since every
token that was minted before expires by then and none is minted after. The code itself stays marked
until it expires. So from its revocation on nothing of the lineage would be served again, whatever is
called in between and however long it takes, were it not that a call reads the clock more than once.
A call that finds a token unexpired just before the record lapses, and looks for the record just
after, serves the token, and what is minted then lives on. Such calls, and those in whose course the
code expires, are the only ones that bring a lineage back. The calls name no time but that of the
clock, and the lineage has no tokens from elsewhere.
-/

namespace OpaqueTokens

open Crypto (Gcm.aead)
open Time (Deadline Instant Reading)

/-- What a call presents of the lineage of a code is the code or one of some tokens, whatever it may
present of other lineages. -/
structure Call.PresentsOnly (call : Call) (codec : Codec) (code : CodeClaims)
    (tokens : List String) : Prop where
  codes : ∀ token ∈ call.operation.token?, ∀ other, codec.Reads token (.code other) →
    other.common.lineage = code.common.lineage → other = code
  others : ∀ token ∈ call.operation.token?, ∀ claims, codec.Reads token claims →
    claims.type ≠ .authorizationCode → claims.common.lineage = code.common.lineage →
      token ∈ tokens

namespace Service

/-- In a run a lineage descends from one code: all that is presented of it is the code or was minted
before. -/
def Descends (service : Service Caches) (caches : Caches) (run : List Call) (code : CodeClaims) :
    Prop :=
  ∀ before call rest, run = before ++ call :: rest →
    call.PresentsOnly service.codec code (service.minted caches before)

/-- In a run a code was exchanged. -/
def HasExchanged (service : Service Caches) (caches : Caches) (run : List Call)
    (code : CodeClaims) : Prop :=
  ∃ before call rest token, run = before ++ call :: rest ∧
    service.codec.Reads token (.code code) ∧
    service.Exchanges call (service.after caches before) token

/-- A call revokes the lineage of a code: its owner revokes an unexpired access or refresh token of
the lineage, or, where this is configured, presents the code once more. An access token is unsealed
twice, so it must not expire meanwhile. -/
inductive RevokesLineage (service : Service Caches) (call : Call) (caches : Caches)
    (code : CodeClaims) : Prop where
  | revoke {token : String} {claims : TokenClaims}
    (hcall : call.operation = .revoke token claims.common.clientId.text)
    (hparse : service.codec.parse call.moments.unsealing token claims.type = .ok claims)
    (hagain : claims.type = .accessToken →
      service.codec.parse call.moments.lookup token claims.type = .ok claims)
    (htype : claims.type ≠ .authorizationCode)
    (hlineage : claims.common.lineage = code.common.lineage)
    (hunexpired : call.moments.start < claims.common.expiresAt)
    (h : (service.perform call caches).2 = .revoked (.ok ()))
  | replay {now : Reading} {draw : Draw} {request : CodeExchange}
    (hconfig : service.config.replay.revokeLineageOnReplay = true)
    (hcall : call.operation = .exchange now draw request)
    (hparse : service.codec.parseCode call.moments.unsealing request.code = .ok code)
    (hclient : code.common.clientId.text = request.clientId)
    (h : (service.perform call caches).2 = .set (.error (.invalidGrant .replayed)))

/-- A call serves a lineage: an access token of the lineage is validated, a refresh token of the
lineage is redeemed, or a token of the lineage is minted. -/
inductive ServesLineage (service : Service Caches) (call : Call) (caches : Caches)
    (lineage : TokenId) : Prop where
  | validates {now : Instant} {token : String} {claims : TokenClaims} {access : AccessClaims}
    (hcall : call.operation = .validateAccess now token)
    (hreads : service.codec.Reads token claims) (hlineage : claims.common.lineage = lineage)
    (h : (service.perform call caches).2 = .access (.ok access))
  | refreshes {now : Reading} {draw : Draw} {request : RefreshExchange} {claims : TokenClaims}
    {set : TokenSet} (hcall : call.operation = .refresh now draw request)
    (hreads : service.codec.Reads request.refreshToken claims)
    (hlineage : claims.common.lineage = lineage)
    (h : (service.perform call caches).2 = .set (.ok set))
  | mints {set : TokenSet} (h : (service.perform call caches).2 = .set (.ok set))
    (hlineage : set.claims.common.lineage = lineage ∨
      ∃ token ∈ set.tokens, ∃ claims, service.codec.Reads token claims ∧
        claims.common.lineage = lineage)

variable {config : Config} {codec : Codec} {caches : Caches} {call : Call} {code : CodeClaims}

/-- A token that reads as an access or refresh token names the lineage that a revocation of it is
about, if an access token can still be read when it is unsealed for the second time. -/
theorem revocable_of_parse {moments : Moments} {token : String} {claims : TokenClaims}
    (h : codec.parse moments.unsealing token claims.type = .ok claims)
    (hagain : claims.type = .accessToken →
      codec.parse moments.lookup token claims.type = .ok claims)
    (htype : claims.type ≠ .authorizationCode) :
    (inMemory config codec).revocable moments token = .ok (some claims) := by
  have hcodec : (inMemory config codec).codec = codec := rfl
  cases claims with
  | code code => exact absurd rfl htype
  | refresh refresh =>
    rw [revocable, hcodec, Codec.parseRefresh_eq_ok_iff.mpr h]
  | access access =>
    have hne : TokenType.refreshToken ≠ .accessToken := by decide
    have hother : codec.parse moments.unsealing token .refreshToken =
        .error (Codec.typeMismatch .refreshToken .accessToken) :=
      ((codec.parse_consistent moments.unsealing token).of_ok h).others .refreshToken hne
    have hparsed : codec.parseAccess moments.lookup token = .ok access :=
      Codec.parseAccess_eq_ok_iff.mpr (hagain rfl)
    rw [codec.parse_refreshToken] at hother
    cases hrefresh : codec.parseRefresh moments.unsealing token with
    | ok refresh => simp [hrefresh] at hother
    | error error =>
      rw [hrefresh, Outcome.map_error] at hother
      obtain rfl := Except.error.inj hother
      have hmismatch :
          (Codec.typeMismatch .refreshToken .accessToken).isTypeMismatch = true := rfl
      rw [revocable, hcodec, hrefresh]
      simp only [hmismatch, if_true, hparsed]

/-- Revoking an access or refresh token looks at its client, at its expiry, and then extends the
record of its lineage. -/
theorem revoke_eq_ite_of_parse (config : Config) (caches : Caches) {moments : Moments}
    {token : String} {claims : TokenClaims}
    (h : codec.parse moments.unsealing token claims.type = .ok claims)
    (hagain : claims.type = .accessToken →
      codec.parse moments.lookup token claims.type = .ok claims)
    (htype : claims.type ≠ .authorizationCode) (client : String) :
    (inMemory config codec).revoke moments token client caches =
      if claims.common.clientId.text ≠ client then
        (caches, .error (.invalidGrant .clientMismatch))
      else if claims.common.expiresAt ≤ moments.start then (caches, .ok ())
      else (⟨caches.replay, caches.revocation.revokeUntil claims.common.lineage
        (config.horizon moments.start)⟩, .ok ()) := by
  rw [revoke, revocable_of_parse h hagain htype]
  simp only [Claims.isExpiredAt, decide_eq_true_eq]
  rfl

/-- A client that revokes an unexpired access or refresh token has its lineage revoked. -/
theorem revoke_of_parse (config : Config) (caches : Caches) {moments : Moments} {token : String}
    {claims : TokenClaims} (h : codec.parse moments.unsealing token claims.type = .ok claims)
    (hagain : claims.type = .accessToken →
      codec.parse moments.lookup token claims.type = .ok claims)
    (htype : claims.type ≠ .authorizationCode)
    (hunexpired : moments.start < claims.common.expiresAt) :
    (inMemory config codec).revoke moments token claims.common.clientId.text caches =
      (⟨caches.replay, caches.revocation.revokeUntil claims.common.lineage
        (config.horizon moments.start)⟩, .ok ()) := by
  have hnot : ¬claims.common.expiresAt ≤ moments.start := Int.not_le.mpr hunexpired
  rw [revoke_eq_ite_of_parse config caches h hagain htype, if_neg (not_not_intro rfl),
    if_neg hnot]

/-- A call that revokes a lineage records it for as long as a refresh token minted at its start
lives. -/
theorem RevokesLineage.holdsUntil (hclock : call.ByClock)
    (h : (inMemory config codec).RevokesLineage call caches code) :
    ((inMemory config codec).perform call caches).1.revocation.HoldsUntil code.common.lineage
      (config.horizon call.moments.start) := by
  cases h with
  | revoke hcall hparse hagain htype hlineage hunexpired _ =>
    simp only [perform, hcall]
    have hparse : codec.parse call.moments.unsealing _ _ = _ := hparse
    rw [revoke_of_parse config caches hparse hagain htype hunexpired, hlineage]
    exact RevocationCache.holdsUntil_revokeUntil _ _ _
  | replay hconfig hcall hparse hclient hanswer =>
    simp only [Call.ByClock, hcall] at hclock
    subst hclock
    simp only [perform, hcall, Answer.set.injEq] at hanswer ⊢
    obtain ⟨other, hpresents, hmarked⟩ := exchange_eq_replayed_iff.mp hanswer
    obtain rfl := Except.ok.inj (hpresents.reads.symm.trans hparse)
    rw [exchange_of_presents hpresents, if_pos hmarked]
    have hconfig : config.replay.revokeLineageOnReplay = true := hconfig
    simp only [grantValidator, inMemory, hconfig, if_true]
    exact RevocationCache.holdsUntil_revokeUntil _ _ _

end Service

/-- A call keeps every record of a revocation that has not lapsed. -/
theorem RevocationCache.HoldsUntil.perform {config : Config} {codec : Codec} {caches : Caches}
    {call : Call} {lineage : TokenId} {deadline : Deadline}
    (h : caches.revocation.HoldsUntil lineage deadline) 
    (hclock : call.moments.lookup.deadline < deadline) :
    ((Service.inMemory config codec).perform call caches).1.revocation.HoldsUntil lineage
      deadline := by
  generalize hafter : ((Service.inMemory config codec).perform call caches).1 = after
  cases hafter ▸ Service.effect_perform call caches with
  | revoked hpresents other => exact h.revokeUntil _ other
  | cleanedRevocation => exact h.cleanup hclock
  | none | used | cleanedReplay => exact h

namespace Service

variable {config : Config} {ring : Keyring} {caches : Caches} {call : Call} {lineage : TokenId}
  {code : CodeClaims}

/-- A call that serves a lineage presents a token of the lineage that is honoured. -/
theorem ServesLineage.honoured (hring : ring.Reachable) (hconfig : config.validate = .ok ())
    (hclock : call.ByClock) (h : (ofRing config ring).ServesLineage call caches lineage) :
    ∃ token ∈ call.operation.token?, ∃ claims, (Codec.ofRing Gcm.aead ring).Reads token claims ∧
      claims.Honoured caches call.moments.lookup call.moments.start ∧
      claims.common.lineage = lineage := by
  cases h with
  | @validates now token claims access hcall hreads hlineage hanswer =>
    simp only [Call.ByClock, hcall] at hclock
    simp only [perform, hcall, Answer.access.injEq] at hanswer
    subst hclock
    have hparse := AccessValidator.claims_of_validate hanswer
    obtain rfl := hreads.unique hring ⟨_, _, hparse⟩
    exact ⟨token, by simp [hcall, Operation.token?], _, hreads,
      AccessValidator.honoured_of_validate hanswer, hlineage⟩
  | @refreshes now draw request claims set hcall hreads hlineage hanswer =>
    obtain ⟨token, htoken, other, hother, hhonoured, -⟩ :=
      within_of_perform hring hconfig hclock hanswer
    simp only [hcall, Operation.token?, Option.mem_def, Option.some.injEq] at htoken
    subst htoken
    obtain rfl := hreads.unique hring hother
    exact ⟨_, by simp [hcall, Operation.token?], _, hother, hhonoured, hlineage⟩
  | @mints set hanswer hlineage =>
    obtain ⟨token, htoken, claims, hreads, hhonoured, hwithin⟩ :=
      within_of_perform hring hconfig hclock hanswer
    refine ⟨token, htoken, claims, hreads, hhonoured, ?_⟩
    rcases hlineage with hlineage | ⟨minted, hminted, read, hread, hlineage⟩
    · exact hwithin.lineage_eq.symm.trans hlineage
    · exact (hwithin.tokens minted hminted read hread).1.symm.trans hlineage

/-- What keeps the lineage of a code dead once the clock shows an instant: it is recorded as revoked
until a deadline, the code is marked until its expiry, and the tokens that were minted in the
lineage expire by the deadline. -/
structure KeepsDead (ring : Keyring) (code : CodeClaims) (deadline : Deadline) (clock : Instant)
    (tokens : List String) (caches : Caches) : Prop where
  revoked : clock.deadline < deadline →
    caches.revocation.HoldsUntil code.common.lineage deadline
  marked : clock < code.common.expiresAt →
    caches.replay.HoldsUntil code.common.id code.common.expiresAt
  bounded : ∀ token ∈ tokens, ∀ read, (Codec.ofRing Gcm.aead ring).Reads token read →
    read.common.lineage = code.common.lineage → read.common.expiresAt.deadline ≤ deadline

variable {deadline : Deadline} {clock : Instant} {tokens : List String}

/-- A dead lineage is dead at every later time. -/
theorem KeepsDead.later {later : Instant} (h : KeepsDead ring code deadline clock tokens caches)
    (hlater : clock ≤ later) : KeepsDead ring code deadline later tokens caches where
  revoked hlapse := h.revoked (Int.lt_of_le_of_lt hlater hlapse)
  marked hexpiry := h.marked (Int.lt_of_le_of_lt hlater hexpiry)
  bounded := h.bounded

/-- A dead lineage is served only by a call in whose course the code expires or the record of the
revocation ends, among calls that present nothing of it but the code and what was minted. -/
theorem KeepsDead.straddles_of_servesLineage (hring : ring.Reachable)
    (hconfig : config.validate = .ok ())
    (h : KeepsDead ring code deadline call.moments.lookup tokens caches) (hclock : call.ByClock)
    (hpresents : call.PresentsOnly (Codec.ofRing Gcm.aead ring) code tokens)
    (hserves : (ofRing config ring).ServesLineage call caches code.common.lineage) :
    call.moments.Straddles code.common.expiresAt.deadline ∨ call.moments.Straddles deadline := by
  obtain ⟨token, htoken, claims, hreads, hhonoured, hlineage⟩ :=
    hserves.honoured hring hconfig hclock
  by_cases hcode : claims.type = .authorizationCode
  · obtain ⟨other, rfl⟩ : ∃ other, claims = .code other := by
      cases claims with
      | code other => exact ⟨other, rfl⟩
      | access | refresh => cases hcode
    obtain rfl := hpresents.codes token htoken other hreads hlineage
    -- It is the code itself, whose mark lasts until it expires.
    refine .inl ⟨hhonoured.unexpired, Int.not_lt.mp fun hunlapsed => ?_⟩
    have hmarked := (h.marked hunlapsed).isMarked hunlapsed
    exact Bool.eq_false_iff.mp (hhonoured.unmarked hcode) hmarked
  · have hmem := hpresents.others token htoken claims hreads hcode hlineage
    -- It was minted, so it expires by the end of the record of the revocation.
    have hbounded := h.bounded token hmem claims hreads hlineage
    refine .inr ⟨Int.lt_of_lt_of_le hhonoured.unexpired hbounded, Int.not_lt.mp fun hunlapsed => ?_⟩
    have hrevoked := (h.revoked hunlapsed).isRevoked hunlapsed
    exact Bool.eq_false_iff.mp (hhonoured.unrevoked hcode) (hlineage ▸ hrevoked)

/-- A call that does not serve a dead lineage leaves it dead. -/
theorem KeepsDead.perform (h : KeepsDead ring code deadline call.moments.lookup tokens caches)
    (hserves : ¬(ofRing config ring).ServesLineage call caches code.common.lineage) :
    KeepsDead ring code deadline call.moments.lookup
      (tokens ++ ((ofRing config ring).perform call caches).2.minted)
      ((ofRing config ring).perform call caches).1 where
  revoked hlapse := (h.revoked hlapse).perform hlapse
  marked hexpiry := (h.marked hexpiry).perform hexpiry
  bounded token htoken read hread hlineage := by
    rw [List.mem_append] at htoken
    rcases htoken with htoken | htoken
    · exact h.bounded token htoken read hread hlineage
    · obtain ⟨set, hset, hmem⟩ := Answer.mem_minted_iff.mp htoken
      exact absurd (.mints hset (.inr ⟨token, hmem, read, hread, hlineage⟩)) hserves

/-- A lineage that is dead stays dead over every run of calls that present nothing of it but the
code and what was minted, unless the code expires or the record of the revocation ends in the course
of one of them. -/
theorem KeepsDead.after (hring : ring.Reachable) (hconfig : config.validate = .ok ())
    {done calls : List Call} {now : Instant}
    (h : KeepsDead ring code deadline clock ((ofRing config ring).minted caches done)
      ((ofRing config ring).after caches done))
    (hclock : (clock :: (calls.map (·.moments.lookup) ++ [now])).Pairwise (· ≤ ·))
    (hbyClock : ∀ call ∈ calls, call.ByClock)
    (hdescends : (ofRing config ring).Descends caches (done ++ calls) code)
    (hwithin : ∀ call ∈ calls, ¬(call.moments.Straddles code.common.expiresAt.deadline ∨
      call.moments.Straddles deadline)) :
    KeepsDead ring code deadline now ((ofRing config ring).minted caches (done ++ calls))
      ((ofRing config ring).after caches (done ++ calls)) := by
  induction calls generalizing done clock with
  | nil =>
    rw [List.append_nil]
    exact h.later (by simpa using hclock)
  | cons call rest ih =>
    obtain ⟨hlater, hrest⟩ := List.pairwise_cons.mp hclock
    obtain ⟨hcallByClock, hrestByClock⟩ := List.forall_mem_cons.mp hbyClock
    obtain ⟨hcallWithin, hrestWithin⟩ := List.forall_mem_cons.mp hwithin
    have hcall := h.later (hlater call.moments.lookup List.mem_cons_self)
    have hstep := hcall.perform fun hserves => hcallWithin
      (hcall.straddles_of_servesLineage hring hconfig hcallByClock (hdescends done call rest rfl)
        hserves)
    rw [List.append_cons] at hdescends ⊢
    refine ih ?_ hrest hrestByClock hdescends hrestWithin
    rw [minted_append, after_append]
    simpa [minted, Service.after] using hstep

/-- A code that was exchanged stays marked until it expires. -/
theorem HasExchanged.holdsUntil (hring : ring.Reachable) {calls rest : List Call} {now : Instant}
    (h : (ofRing config ring).HasExchanged caches calls code)
    (hclock : ∀ call ∈ calls ++ rest, call.moments.lookup ≤ now)
    (hnow : now < code.common.expiresAt) :
    ((ofRing config ring).after caches (calls ++ rest)).replay.HoldsUntil code.common.id
      code.common.expiresAt := by
  obtain ⟨before, call, between, token, rfl, hreads, hexchanges⟩ := h
  obtain ⟨accepted, haccepts⟩ := hexchanges.accepts
  obtain ⟨hparse, -, -⟩ := haccepts.spec
  obtain rfl := TokenClaims.code.inj (hreads.unique hring ⟨_, _, hparse⟩)
  rw [List.append_assoc, after_append, List.cons_append, after_cons]
  refine haccepts.holdsUntil.after fun other hother => ?_
  exact Int.lt_of_le_of_lt (hclock other (by simp [List.mem_append.mp hother])) hnow

/-- A run goes on descending from a code by a call that presents nothing of its lineage but the code
and what was minted. -/
theorem Descends.snoc {service : Service Caches} {run : List Call}
    (h : service.Descends caches run code)
    (hcall : call.PresentsOnly service.codec code (service.minted caches run)) :
    service.Descends caches (run ++ [call]) code := by
  intro before other rest hrun
  rcases Call.split_snoc hrun with ⟨rfl, rfl⟩ | ⟨others, hrun⟩
  · exact hcall
  · exact h before other others hrun

end Service

end OpaqueTokens
