import OpaqueTokens.Proofs.Grant.Acceptance
import OpaqueTokens.Proofs.Grant.Runs

/-!
# Codes are used once, except across their expiry

A code that was accepted is marked until it expires. No call takes the mark away before: marking
another code keeps marks that have not lapsed, and so do clean-ups. When the mark lapses the code
has expired for the sealer too, since both compare its expiry with the clock. But they read the
clock one after the other. A call whose token is unsealed just before the expiry, and whose mark is
looked up just after it, meets neither check and accepts the code once more, although a code is
meant to be exchanged once. Such calls are the only ones.
-/

namespace OpaqueTokens

open Crypto (Gcm.aead Gcm.maxTextLength)
open Time (Instant Reading)

variable {config : Config} {codec : Codec} {caches : Caches} {id : TokenId}
  {validUntil : Instant}

/-- A call keeps every mark that has not lapsed. -/
theorem ReplayCache.HoldsUntil.perform {call : Call} (h : caches.replay.HoldsUntil id validUntil)
    (hclock : call.moments.lookup < validUntil) :
    ((Service.inMemory config codec).perform call caches).1.replay.HoldsUntil id validUntil := by
  generalize hafter : ((Service.inMemory config codec).perform call caches).1 = after
  cases hafter ▸ Service.effect_perform call caches with
  | used hpresents hunmarked => exact h.put hclock hunmarked _
  | cleanedReplay => exact h.cleanup hclock
  | none | revoked | cleanedRevocation => exact h

/-- A run keeps every mark that does not lapse while it lasts. -/
theorem ReplayCache.HoldsUntil.after {calls : List Call}
    (h : caches.replay.HoldsUntil id validUntil)
    (hclock : ∀ call ∈ calls, call.moments.lookup < validUntil) :
    ((Service.inMemory config codec).after caches calls).replay.HoldsUntil id validUntil := by
  induction calls generalizing caches with
  | nil => exact h
  | cons call rest ih =>
    rw [Service.after_cons]
    obtain ⟨hcall, hrest⟩ := List.forall_mem_cons.mp hclock
    exact ih (h.perform hcall) hrest

namespace Service

/-- A call leads to no mark that lasts beyond an instant, if it presents no code of the identifier
that does. -/
theorem isMarked_perform_eq_false {call : Call}
    (h : caches.replay.isMarked id validUntil = false)
    (hcodes : ∀ code, call.Presents codec (.code code) → code.common.id = id →
      code.common.expiresAt ≤ validUntil) :
    ((inMemory config codec).perform call caches).1.replay.isMarked id validUntil = false := by
  generalize hafter : ((inMemory config codec).perform call caches).1 = after
  cases hafter ▸ effect_perform call caches with
  | @used code hpresents hunmarked =>
    rw [Caches.used, ReplayCache.isMarked_put]
    split
    · rename_i hid
      exact decide_eq_false (Int.not_lt.mpr (hcodes code hpresents hid.symm))
    · exact h
  | cleanedReplay => exact ReplayCache.isMarked_cleanup_eq_false h _
  | none | revoked | cleanedRevocation => exact h

/-- A run leads to no mark that lasts beyond an instant, if it presents no code of the identifier
that does. -/
theorem isMarked_after_eq_false {calls : List Call}
    (h : caches.replay.isMarked id validUntil = false)
    (hcodes : ∀ call ∈ calls, ∀ code, call.Presents codec (.code code) → code.common.id = id →
      code.common.expiresAt ≤ validUntil) :
    ((inMemory config codec).after caches calls).replay.isMarked id validUntil = false := by
  induction calls generalizing caches with
  | nil => exact h
  | cons call rest ih =>
    rw [after_cons]
    obtain ⟨hcall, hrest⟩ := List.forall_mem_cons.mp hcodes
    exact ih (isMarked_perform_eq_false h hcall) hrest

/-- What accepting a code says: it was parsed, it had no mark, and it has one from then on. -/
theorem Accepts.spec {call : Call} {token : String} {code : CodeClaims}
    (h : (inMemory config codec).Accepts call caches token code) :
    codec.parse call.moments.unsealing token .authorizationCode = .ok (.code code) ∧
      caches.replay.isMarked code.common.id call.moments.lookup = false ∧
      ((inMemory config codec).perform call caches).1 = caches.used code := by
  cases h with
  | exchange hcall hvalidate =>
    simp only [perform, hcall]
    exact GrantValidator.validate_eq_ok_code hvalidate
  | validate hcall hvalidate =>
    simp only [perform, hcall]
    exact GrantValidator.validate_eq_ok_code hvalidate

/-- A code that was accepted is marked until it expires. -/
theorem Accepts.holdsUntil {call : Call} {token : String} {code : CodeClaims}
    (h : (inMemory config codec).Accepts call caches token code) :
    ((inMemory config codec).perform call caches).1.replay.HoldsUntil code.common.id
      code.common.expiresAt := by
  obtain ⟨-, -, hused⟩ := h.spec
  rw [hused]
  exact ReplayCache.holdsUntil_put _ _ _

/-- After a code was accepted, no code of its identifier is accepted by a call that looks its mark
up before the expiry. -/
theorem expiresAt_le_of_accepts {first second : Call} {between : List Call}
    {token token' : String} {code code' : CodeClaims}
    (hbetween : ∀ call ∈ between, call.moments.lookup ≤ second.moments.lookup)
    (hfirst : (inMemory config codec).Accepts first caches token code)
    (hsecond : (inMemory config codec).Accepts second
      ((inMemory config codec).after caches (first :: between)) token' code')
    (hid : code'.common.id = code.common.id) :
    code.common.expiresAt ≤ second.moments.lookup := by
  refine Decidable.byContradiction fun hlater => ?_
  have hclock : second.moments.lookup < code.common.expiresAt := Int.not_le.mp hlater
  have hheld : ((inMemory config codec).after ((inMemory config codec).perform first caches).1
      between).replay.HoldsUntil code.common.id code.common.expiresAt :=
    hfirst.holdsUntil.after fun call hcall => Int.lt_of_le_of_lt (hbetween call hcall) hclock
  obtain ⟨-, hunmarked, -⟩ := hsecond.spec
  rw [after_cons, hid, hheld.isMarked hclock] at hunmarked
  cases hunmarked

/-- A code that was accepted and is presented again is accepted again by a call that looks its mark
up at the expiry or later, unless a code of its identifier was presented that expires later. -/
theorem accepts_of_expiresAt_le {first second : Call} {between : List Call} {token : String}
    {code : CodeClaims} (hfirst : (inMemory config codec).Accepts first caches token code)
    (hcodes : ∀ call ∈ between, ∀ other, call.Presents codec (.code other) →
      other.common.id = code.common.id → other.common.expiresAt ≤ code.common.expiresAt)
    {now : Reading} {draw : Draw} {request : CodeExchange}
    (hcall : second.operation = .exchange now draw request)
    (hpresents : request.Presents codec second.moments.unsealing now.universal code)
    (hlookup : code.common.expiresAt ≤ second.moments.lookup) :
    (inMemory config codec).Accepts second
      ((inMemory config codec).after caches (first :: between)) request.code code := by
  obtain ⟨-, -, hused⟩ := hfirst.spec
  have hput : (caches.used code).replay.isMarked code.common.id code.common.expiresAt = false := by
    simp [Caches.used, ReplayCache.isMarked_put, Instant.lt_def]
  have hlapsed := @isMarked_after_eq_false config codec _ _ _ _ hput hcodes
  have hunmarked := ReplayCache.isMarked_eq_false_of_le hlapsed hlookup
  refine .exchange hcall ?_
  rw [after_cons, hused, validate_of_presents hpresents, if_neg (Bool.eq_false_iff.mp hunmarked)]

/-- A call exchanges a code: it is answered with a set of tokens. -/
def Exchanges (service : Service Caches) (call : Call) (caches : Caches) (token : String) : Prop :=
  ∃ now draw request set, call.operation = .exchange now draw request ∧ request.code = token ∧
    (service.perform call caches).2 = .set (.ok set)

/-- An exchange that leads to a set exchanges its code. -/
theorem exchanges_of_exchange {service : Service Caches} {moments : Moments} {now : Reading}
    {draw : Draw} {request : CodeExchange} {after : Caches} {set : TokenSet}
    (h : service.exchange moments now draw request caches = (after, .ok set)) :
    service.Exchanges ⟨moments, .exchange now draw request⟩ caches request.code := by
  refine ⟨now, draw, request, set, rfl, rfl, ?_⟩
  simp only [perform, h]

/-- A code that is exchanged was accepted. -/
theorem Exchanges.accepts {call : Call} {token : String}
    (h : (inMemory config codec).Exchanges call caches token) :
    ∃ code, (inMemory config codec).Accepts call caches token code := by
  obtain ⟨now, draw, request, set, hcall, rfl, hset⟩ := h
  simp only [perform, hcall, Answer.set.injEq] at hset
  obtain ⟨grant, hgrant, hredeem⟩ := Outcome.bind_eq_ok_iff.mp hset
  cases grant with
  | code code => exact ⟨code, .exchange hcall hgrant⟩
  | refresh refresh =>
    have htype := Codec.type_of_parse (GrantValidator.claims_of_validate hgrant)
    cases htype

/-- A token that was issued with a key of the ring reads the same whenever it can be read, and only
before the expiry that it says. -/
theorem eq_of_parse_of_issuedUnder {ring : Keyring} (hring : ring.Reachable) {token : String}
    (hissued : Codec.IssuedUnder ring token) {clock clock' : Instant} {expected : TokenType}
    {read read' : TokenClaims}
    (h : (Codec.ofRing Gcm.aead ring).parse clock token expected = .ok read)
    (h' : (Codec.ofRing Gcm.aead ring).parse clock' token expected = .ok read') :
    read' = read ∧ clock' < read.common.expiresAt := by
  obtain ⟨claims, hparse⟩ := Codec.parse_of_issuedUnder hring hissued
  rw [hparse, Outcome.ite_error_eq_ok_iff, Outcome.mapError_eq_ok_iff] at h h'
  obtain ⟨-, hdecode⟩ := h
  obtain ⟨hclock, hdecode'⟩ := h'
  obtain ⟨-, -, delivery, hcommon⟩ := Wire.of_decode_encode hdecode
  refine ⟨Except.ok.inj (hdecode'.symm.trans hdecode), ?_⟩
  have hseconds : read.common.expiresAt.seconds = claims.common.expiresAt.seconds := by
    rw [hcommon]
    exact Instant.seconds_floor _
  exact Instant.lt_of_seconds_lt (hseconds ▸ Int.not_le.mp hclock)

/-- After an issued code was accepted, it is accepted again only by a call that has it unsealed
before its expiry and looks its mark up at the expiry or later. -/
theorem straddles_of_accepts {ring : Keyring} (hring : ring.Reachable) {first second : Call}
    {between : List Call} {token : String} {code code' : CodeClaims}
    (hbetween : ∀ call ∈ between, call.moments.lookup ≤ second.moments.lookup)
    (hissued : Codec.IssuedUnder ring token)
    (hfirst : (ofRing config ring).Accepts first caches token code)
    (hsecond : (ofRing config ring).Accepts second
      ((ofRing config ring).after caches (first :: between)) token code') :
    second.moments.unsealing < code.common.expiresAt ∧
      code.common.expiresAt ≤ second.moments.lookup := by
  obtain ⟨hparse, -, -⟩ := hfirst.spec
  obtain ⟨hparse', -, -⟩ := hsecond.spec
  obtain ⟨hread, hunsealing⟩ := eq_of_parse_of_issuedUnder hring hissued hparse hparse'
  have hcode : code' = code := TokenClaims.code.inj hread
  exact ⟨hunsealing, expiresAt_le_of_accepts hbetween hfirst hsecond (hcode ▸ rfl)⟩

/-- Whatever happens in a run whose clock never goes back: once a code was accepted, no code with
its identifier is accepted by a call that looks its mark up before the expiry. The code itself, if
it was issued with a key that the ring has, is accepted or exchanged again only by a call that has
it unsealed before the expiry and looks its mark up at the expiry or later. As long as no code of
its identifier that expires later was presented, every such call does accept it again. -/
theorem code_accepted_again_only_across_expiry {config : Config} {ring : Keyring}
    (hring : ring.Reachable) (caches : Caches) {before between rest : List Call}
    {first second : Call} (horder : InOrder (before ++ first :: (between ++ second :: rest)))
    {token : String} {code : CodeClaims}
    (hfirst : (ofRing config ring).Accepts first ((ofRing config ring).after caches before) token
      code) :
    (∀ token' code', (ofRing config ring).Accepts second
        ((ofRing config ring).after caches (before ++ first :: between)) token' code' →
      code'.common.id = code.common.id → code.common.expiresAt ≤ second.moments.lookup) ∧
    (Codec.IssuedUnder ring token →
      ((∃ code', (ofRing config ring).Accepts second
          ((ofRing config ring).after caches (before ++ first :: between)) token code') ∨
        (ofRing config ring).Exchanges second
          ((ofRing config ring).after caches (before ++ first :: between)) token) →
      second.moments.unsealing < code.common.expiresAt ∧
        code.common.expiresAt ≤ second.moments.lookup) ∧
    ((∀ call ∈ between, ∀ other, call.Presents (ofRing config ring).codec (.code other) →
        other.common.id = code.common.id → other.common.expiresAt ≤ code.common.expiresAt) →
      ∀ now draw request, second.operation = .exchange now draw request →
        request.Presents (ofRing config ring).codec second.moments.unsealing now.universal code →
          ((ofRing config ring).Accepts second
              ((ofRing config ring).after caches (before ++ first :: between)) request.code code ↔
            code.common.expiresAt ≤ second.moments.lookup)) := by
  have hbetween : ∀ call ∈ between, call.moments.lookup ≤ second.moments.lookup :=
    fun call hcall => horder.segment.lookup_le_last call (by simp [hcall])
  rw [after_append]
  refine ⟨fun token' code' => expiresAt_le_of_accepts hbetween hfirst, fun hissued hagain => ?_,
    fun hcodes now draw request hcall hpresents => ⟨fun hsecond => ?_, fun hlookup => ?_⟩⟩
  · obtain ⟨code', hsecond⟩ : ∃ code', (ofRing config ring).Accepts second
        ((ofRing config ring).after ((ofRing config ring).after caches before) (first :: between))
        token code' := hagain.elim id Exchanges.accepts
    exact straddles_of_accepts hring hbetween hissued hfirst hsecond
  · exact expiresAt_le_of_accepts hbetween hfirst hsecond rfl
  · exact accepts_of_expiresAt_le hfirst hcodes hcall hpresents hlookup

/-- A call that redeems a token as the sample client does. The caller names the second in which the
sample code was issued, whatever the clock shows. -/
def sampleCall (token : String) (clock : Instant) : Call :=
  ⟨clock, .exchange sampleClock.reading sampleDraw (sampleRequest token)⟩

/-- A call during which the sample code expires: its token is unsealed in the last nanosecond, and
its mark is looked up after that. -/
def straddlingMoments : Moments :=
  let last : Instant := ⟨59999999999, by decide, by decide⟩
  ⟨last, last, Codec.sampleCode.common.expiresAt⟩

/-- A call that redeems a token as the sample client does while the sample code expires. -/
def straddlingCall (token : String) : Call :=
  ⟨straddlingMoments, .exchange straddlingMoments.start.reading sampleDraw (sampleRequest token)⟩

/-- The clock does not go back when the sample code is redeemed at once, and then again while it
expires. -/
theorem inOrder_sample (token : String) :
    InOrder [sampleCall token sampleClock, straddlingCall token] := by
  have hlater : sampleClock ≤ straddlingMoments.start := by decide
  have hordered : straddlingMoments.Ordered := ⟨Int.le_refl _, by decide⟩
  simp [sampleCall, straddlingCall, hlater, hordered]

/-- The sample code is exchanged when it is presented for the first time. -/
theorem exchanges_sample {token : String}
    (h : Codec.sampleCodec.issue Codec.sampleNonce (.code Codec.sampleCode) = .ok token) :
    sampleService.Exchanges (sampleCall token sampleClock) {} token ∧
      sampleService.after {} [sampleCall token sampleClock] = Caches.used {} Codec.sampleCode := by
  obtain ⟨set, hset⟩ := @exists_set_sample token h {} sampleClock sampleClock (by decide)
    (by decide) rfl (by decide) mintsWithin_sample
  exact ⟨exchanges_of_exchange hset, congrArg Prod.fst hset⟩

/-- The sample code is exchanged. A second call, during which the clock stands still at the expiry,
does not exchange it again, but one that has it unsealed just before the expiry and looks its mark up
at the expiry accepts it again. -/
theorem code_accepted_again_only_across_expiry_sample :
    ∃ token, sampleService.codec.Issued token ∧
      sampleService.Exchanges (sampleCall token sampleClock) {} token ∧
      ¬sampleService.Exchanges (sampleCall token Codec.sampleCode.common.expiresAt)
        (sampleService.after {} [sampleCall token sampleClock]) token ∧
      sampleService.Accepts (straddlingCall token)
        (sampleService.after {} [sampleCall token sampleClock]) token Codec.sampleCode := by
  obtain ⟨token, hissue⟩ := Codec.exists_issue_sample
  have hissued : Codec.sampleCodec.Issued token := ⟨_, _, hissue⟩
  obtain ⟨hexchanges, -⟩ := exchanges_sample hissue
  have hpresents := presents_sample hissue (by decide : sampleClock.seconds < _)
    (by decide : sampleClock < _) (sampleRequest token).redirectUri
  have hfirst : sampleService.Accepts (sampleCall token sampleClock) {} token Codec.sampleCode :=
    @Accepts.exchange _ _ _ sampleClock.reading sampleDraw (sampleRequest token) _ rfl
      (congrArg Prod.snd (validate_of_presents hpresents))
  have hlater : InOrder [sampleCall token sampleClock,
      sampleCall token Codec.sampleCode.common.expiresAt] := by
    have hle : sampleClock ≤ Codec.sampleCode.common.expiresAt := by decide
    simp [sampleCall, hle]
  obtain ⟨-, honly, -⟩ := @code_accepted_again_only_across_expiry sampleConfig Codec.sampleRing
    Codec.sampleRing_reachable {} [] [] [] (sampleCall token sampleClock)
    (sampleCall token Codec.sampleCode.common.expiresAt) hlater token _ hfirst
  obtain ⟨-, -, hagain⟩ := @code_accepted_again_only_across_expiry sampleConfig Codec.sampleRing
    Codec.sampleRing_reachable {} [] [] [] (sampleCall token sampleClock) (straddlingCall token)
    (inOrder_sample token) token _ hfirst
  refine ⟨token, hissued, hexchanges, fun htwice => ?_, ?_⟩
  · obtain ⟨hunsealing, -⟩ := honly (hissued.under Codec.sampleRing_reachable) (.inr htwice)
    exact absurd hunsealing (Int.lt_irrefl _)
  · have hpresents := presents_sample hissue
      (by decide : straddlingMoments.unsealing.seconds < _)
      (by decide : straddlingMoments.start < _) (sampleRequest token).redirectUri
    exact (hagain (List.forall_mem_nil _) _ _ _ rfl hpresents).mpr (Int.le_refl _)

/-- The sample code is exchanged twice, though it was issued by the service, the clock never goes
back and no call names a time but that of its start. -/
theorem code_exchanged_twice_sample :
    ∃ token, sampleService.codec.Issued token ∧
      InOrder [sampleCall token sampleClock, straddlingCall token] ∧
      (∀ call ∈ [sampleCall token sampleClock, straddlingCall token], call.ByClock) ∧
      sampleService.Exchanges (sampleCall token sampleClock) {} token ∧
      sampleService.Exchanges (straddlingCall token)
        (sampleService.after {} [sampleCall token sampleClock]) token := by
  obtain ⟨token, hissue⟩ := Codec.exists_issue_sample
  obtain ⟨hexchanges, hafter⟩ := exchanges_sample hissue
  obtain ⟨set, hset⟩ := @exists_set_sample token hissue (Caches.used {} Codec.sampleCode)
    straddlingMoments straddlingMoments.start (by decide) (by decide) rfl (by decide)
    (mintsWithin_of_fitsCipher (by decide +kernel) (by decide +kernel))
  refine ⟨token, ⟨_, _, hissue⟩, inOrder_sample token, ?_, hexchanges, ?_⟩
  · simp [sampleCall, straddlingCall, Call.ByClock]
  · rw [hafter]
    exact exchanges_of_exchange hset

end Service

end OpaqueTokens
