import Mathlib.Data.List.Forall2
import OpaqueTokens.Proofs.Grant.Completeness
import OpaqueTokens.Proofs.Grant.Runs

/-!
# Tokens and the codes that they descend from

Every token that a run mints descends from a code that the run issued, over one redemption or two,
and what it carries is contained in the code: it is about the same grant, covers no more of it, has
no challenge, and has an identifier of its own. This is so for every faithful sealer and with any
stores, failing ones included, whatever scopes are requested and whichever way the clock moves. The
service is given nothing that it did not return, and its fresh identifiers do not collide.
-/

namespace OpaqueTokens

open Time (Instant Reading)

/-- The token that an operation redeems. -/
def Operation.redeemed? : Operation → Option String
  | .exchange _ _ request => some request.code
  | .refresh _ _ request => some request.refreshToken
  | .issueCode _ _ | .issueAccess _ _ | .validateGrant _ _ _ _ _ | .validateAccess _ _
  | .revoke _ _ | .cleanupReplay | .cleanupRevocation => none

/-- The identifiers that an operation draws for the tokens that it may mint. -/
def Operation.drawn : Operation → List TokenId
  | .exchange _ draw _ => [draw.accessId, draw.refreshId]
  | .refresh _ draw _ => [draw.accessId]
  | .issueCode _ _ | .issueAccess _ _ | .validateGrant _ _ _ _ _ | .validateAccess _ _
  | .revoke _ _ | .cleanupReplay | .cleanupRevocation => []

/-- The identifiers of the claims that an operation is asked to issue. -/
def Operation.claimed : Operation → List TokenId
  | .issueCode _ claims => [claims.common.id]
  | .issueAccess _ claims => [claims.common.id]
  | .exchange _ _ _ | .refresh _ _ _ | .validateGrant _ _ _ _ _ | .validateAccess _ _
  | .revoke _ _ | .cleanupReplay | .cleanupRevocation => []

/-- The tokens that an answer returns: the one that was issued, or those of a set. -/
def Answer.returned : Answer → List String
  | .token (.ok issued) => [issued]
  | .set (.ok minted) => minted.tokens
  | _ => []

/-- The tokens of a set with their types. -/
def TokenSet.typedTokens (set : TokenSet) : List (TokenType × String) :=
  (.accessToken, set.accessToken) :: set.refreshToken.toList.map (.refreshToken, ·)

/-- What an answer returns was issued, or is one of a set. -/
theorem Answer.mem_returned_iff {answer : Answer} {token : String} :
    token ∈ answer.returned ↔
      answer = .token (.ok token) ∨ ∃ set, answer = .set (.ok set) ∧ token ∈ set.tokens := by
  unfold returned
  split
  · simp [eq_comm]
  · simp
  · rename_i hissued hminted
    simp only [List.not_mem_nil, false_iff, not_or, not_exists, not_and]
    exact ⟨hissued token, fun set hset => absurd hset (hminted set)⟩

/-- Each token of a set has a type. -/
theorem TokenSet.exists_typed (set : TokenSet) {token : String} (h : token ∈ set.tokens) :
    ∃ type, (type, token) ∈ set.typedTokens := by
  rw [tokens, List.mem_cons] at h
  rcases h with rfl | h
  · exact ⟨.accessToken, List.mem_cons_self⟩
  · exact ⟨.refreshToken, List.mem_cons_of_mem _ (List.mem_map_of_mem h)⟩

/-- What has a type in a set is one of its tokens. -/
theorem TokenSet.mem_tokens_of_typed (set : TokenSet) {type : TokenType} {token : String}
    (h : (type, token) ∈ set.typedTokens) : token ∈ set.tokens := by
  rw [typedTokens, List.mem_cons, List.mem_map] at h
  rw [tokens, List.mem_cons]
  rcases h with h | ⟨other, hother, h⟩
  · exact .inl (Prod.mk.inj h).2
  · exact .inr ((Prod.mk.inj h).2 ▸ hother)

/-- The identifiers that a run draws are distinct, and no claims that it is asked to issue have one
of them. -/
structure FreshDraws (run : List Call) : Prop where
  nodup : (run.flatMap (·.operation.drawn)).Nodup
  unclaimed : ∀ id ∈ run.flatMap (·.operation.drawn), id ∉ run.flatMap (·.operation.claimed)

namespace Service

/-- A run returned a token. -/
def Returned (service : Service Caches) (caches : Caches) (run : List Call) (token : String) :
    Prop :=
  ∃ before call rest, run = before ++ call :: rest ∧
    token ∈ (service.perform call (service.after caches before)).2.returned

/-- Whatever a run redeems that reads as a code or a refresh token, it returned before. -/
def RedeemsReturned (service : Service Caches) (caches : Caches) (run : List Call) : Prop :=
  ∀ before call rest, run = before ++ call :: rest → ∀ token ∈ call.operation.redeemed?,
    ∀ claims, service.codec.Reads token claims → claims.type ≠ .accessToken →
      service.Returned caches before token

/-- A token of a run descends from a code: it was issued for the code, or it was minted when another
token that descends from the code was redeemed. -/
inductive StemsFrom (service : Service Caches) (caches : Caches) (run : List Call)
    (code : CodeClaims) : String → Prop where
  | issued {before rest : List Call} {call : Call} {nonce : Nonce} {token : String}
    (hrun : run = before ++ call :: rest) (hcall : call.operation = .issueCode nonce code)
    (h : (service.perform call (service.after caches before)).2 = .token (.ok token)) :
    StemsFrom service caches run code token
  | minted {before rest : List Call} {call : Call} {parent token : String} {set : TokenSet}
    (hparent : StemsFrom service caches run code parent)
    (hrun : run = before ++ call :: rest) (hcall : parent ∈ call.operation.redeemed?)
    (h : (service.perform call (service.after caches before)).2 = .set (.ok set))
    (htoken : token ∈ set.tokens) : StemsFrom service caches run code token

/-- A call redeems the claims of a grant for a set. -/
inductive Redeems (service : Service Caches) (call : Call) (set : TokenSet) :
    TokenClaims → Prop where
  | exchange {now : Reading} {draw : Draw} {request : CodeExchange} {code : CodeClaims}
    (hcall : call.operation = .exchange now draw request)
    (hparse : service.codec.parse call.moments.unsealing request.code .authorizationCode =
      .ok (.code code))
    (h : service.Mints now.universal draw code set) : Redeems service call set (.code code)
  | refresh {now : Reading} {draw : Draw} {request : RefreshExchange} {refresh : RefreshClaims}
    (hcall : call.operation = .refresh now draw request)
    (hparse : service.codec.parse call.moments.unsealing request.refreshToken .refreshToken =
      .ok (.refresh refresh))
    (h : service.Renews now.universal draw request.scope refresh set) :
    Redeems service call set (.refresh refresh)

variable {service : Service Caches} {caches : Caches} {run : List Call} {call : Call}
  {set : TokenSet} {code : CodeClaims} {claims : TokenClaims} {token : String}

/-- A set is the answer to a grant that was redeemed. -/
theorem redeems_of_perform (h : (service.perform call caches).2 = .set (.ok set)) :
    ∃ claims, service.Redeems call set claims := by
  obtain ⟨moments, operation⟩ := call
  cases operation with
  | exchange now draw request =>
    obtain ⟨code, hparse, hmints⟩ := mints_of_exchange (Answer.set.inj h)
    exact ⟨.code code, .exchange rfl hparse hmints⟩
  | refresh now draw request =>
    obtain ⟨refresh, hparse, hrenews⟩ := renews_of_refresh (Answer.set.inj h)
    exact ⟨.refresh refresh, .refresh rfl hparse hrenews⟩
  | issueCode | issueAccess | validateGrant | validateAccess | revoke | cleanupReplay
  | cleanupRevocation => cases h

/-- What is redeemed is a token that reads as a code or a refresh token. -/
theorem Redeems.exists_token (h : service.Redeems call set claims) :
    ∃ token ∈ call.operation.redeemed?, service.codec.Reads token claims ∧
      claims.type ≠ .accessToken := by
  cases h with
  | @exchange now draw request code hcall hparse h =>
    exact ⟨request.code, by rw [hcall]; rfl, ⟨_, _, hparse⟩, nofun⟩
  | @refresh now draw request refresh hcall hparse h =>
    exact ⟨request.refreshToken, by rw [hcall]; rfl, ⟨_, _, hparse⟩, nofun⟩

/-- What readable claims are redeemed for is carried within them, and has no challenge. -/
theorem Redeems.carries (hsealer : service.codec.sealer.Faithful)
    (h : service.Redeems call set claims) (hclaims : claims.common.Readable) :
    ∀ typed ∈ set.typedTokens, ∃ minted : TokenClaims, minted.type = typed.1 ∧
      minted.codeChallenge = none ∧
      service.codec.CarriesWithin typed.2 minted claims.common := by
  intro typed htyped
  rw [TokenSet.typedTokens, List.mem_cons, List.mem_map] at htyped
  cases h with
  | @exchange now draw request code hcall hparse h =>
    rcases htyped with rfl | ⟨token, htoken, rfl⟩
    · exact ⟨.access set.claims, rfl, rfl,
        Codec.carriesWithin_of_derive hsealer hclaims (.refl _) h.derived h.made.issued⟩
    · obtain ⟨refresh, hderived, hissue⟩ := h.refresh token (Option.mem_toList.mp htoken)
      exact ⟨.refresh refresh, rfl, rfl,
        Codec.carriesWithin_of_derive hsealer hclaims (.refl _) hderived hissue⟩
  | @refresh now draw request refresh hcall hparse h =>
    rcases htyped with rfl | ⟨token, htoken, rfl⟩
    · obtain ⟨-, hderived⟩ := RefreshClaims.accessToken_eq_ok_iff.mp h.derived
      obtain ⟨hnarrowed, -⟩ :=
        refresh.contained_narrowed (refresh.containsAll_effectiveScope request.scope)
      exact ⟨.access set.claims, rfl, rfl, Codec.carriesWithin_of_derive hsealer
        (Claims.Readable.narrowed hclaims _) hnarrowed hderived h.made.issued⟩
    · rw [h.refresh_eq_none] at htoken
      cases htoken

/-- The codes that a run issues were built, with integers for the numbers of their attributes. -/
def IssuesBuilt (run : List Call) : Prop :=
  ∀ call ∈ run, ∀ nonce code, call.operation = .issueCode nonce code →
    code.common.Built ∧ code.common.delivery.Integral

/-- Whatever a token that descends from a code reads as is readable and contained in the code. -/
theorem StemsFrom.contained (hsealer : service.codec.sealer.Faithful) (hcodes : IssuesBuilt run)
    (h : service.StemsFrom caches run code token) :
    ∀ claims, service.codec.Reads token claims →
      claims.common.ContainedIn code.common ∧ claims.common.Readable := by
  induction h with
  | @issued before rest call nonce token hrun hcall h =>
    intro claims hread
    obtain ⟨hbuilt, hintegral⟩ := hcodes call (by rw [hrun]; simp) nonce code hcall
    have hissue : service.codec.issue nonce (.code code) = .ok token := by
      simp only [perform, hcall, Answer.token.injEq] at h
      exact issue_of_issueCode h
    obtain ⟨clock, type, hparse⟩ := id hread
    rw [Codec.parse_of_issue_of_faithful hsealer hissue, Outcome.ite_error_eq_ok_iff,
      Outcome.mapError_eq_ok_iff] at hparse
    have hreadable : (TokenClaims.code code).common.Readable :=
      Wire.readable_of_decode_encode hbuilt hintegral hparse.2
    obtain rfl := (Codec.carries_of_issue hsealer hreadable hissue).eq_of_reads hread
    exact ⟨.refl _, hreadable⟩
  | @minted before rest call parent token set hparent hrun hcall h htoken ih =>
    intro claims hread
    obtain ⟨redeemed, hredeems⟩ := redeems_of_perform h
    obtain ⟨presented, hpresented, hreads, -⟩ := hredeems.exists_token
    obtain rfl := Option.mem_unique hcall hpresented
    obtain ⟨hcontained, hreadable⟩ := ih redeemed hreads
    obtain ⟨type, htyped⟩ := set.exists_typed htoken
    obtain ⟨minted, -, -, hwithin⟩ := hredeems.carries hsealer hreadable _ htyped
    obtain rfl := hwithin.carries.eq_of_reads hread
    exact ⟨hwithin.contained.trans hcontained, hwithin.readable⟩

/-- A token that is issued and reads as a code or a refresh token is a code that was issued. -/
theorem issueCode_of_perform (hsealer : service.codec.sealer.Faithful)
    (h : (service.perform call caches).2 = .token (.ok token))
    (hread : service.codec.Reads token claims) (htype : claims.type ≠ .accessToken) :
    ∃ nonce code, call.operation = .issueCode nonce code := by
  obtain ⟨moments, operation⟩ := call
  cases operation with
  | issueCode nonce code => exact ⟨nonce, code, rfl⟩
  | issueAccess nonce access =>
    have hissue : service.codec.issue nonce (.access access) = .ok token :=
      Outcome.mapError_eq_ok_iff.mp (Answer.token.inj h)
    exact absurd (hread.of_issue_of_faithful hsealer hissue).1 htype
  | exchange | validateGrant | refresh | validateAccess | revoke | cleanupReplay
  | cleanupRevocation => cases h

/-- A token that the beginning of a run returned descends from a code, if it reads as a code or a
refresh token. -/
theorem Returned.exists_stemsFrom (hsealer : service.codec.sealer.Faithful)
    (hredeems : service.RedeemsReturned caches run) {before rest : List Call}
    (h : service.Returned caches before token) (hrun : run = before ++ rest)
    (hread : service.codec.Reads token claims) (htype : claims.type ≠ .accessToken) :
    ∃ code, service.StemsFrom caches run code token := by
  -- A token that was minted goes back to one that was returned earlier.
  induction hlength : before.length using Nat.strongRecOn generalizing before rest token claims with
  | _ length ih =>
    obtain ⟨earlier, call, later, rfl, hmem⟩ := h
    have hcall : run = earlier ++ call :: (later ++ rest) := by rw [hrun]; simp
    rcases Answer.mem_returned_iff.mp hmem with hissued | ⟨set, hset, htoken⟩
    · obtain ⟨nonce, code, hoperation⟩ := issueCode_of_perform hsealer hissued hread htype
      exact ⟨code, .issued hcall hoperation hissued⟩
    · obtain ⟨redeemed, hredeemed⟩ := redeems_of_perform hset
      obtain ⟨parent, hparent, hreads, hparentType⟩ := hredeemed.exists_token
      have hreturned := hredeems earlier call _ hcall parent hparent redeemed hreads hparentType
      have hshorter : earlier.length < length := by
        rw [← hlength, List.length_append, List.length_cons]
        omega
      obtain ⟨code, hstems⟩ := ih earlier.length hshorter hreturned hcall hreads hparentType rfl
      exact ⟨code, .minted hstems hcall hparent hset htoken⟩

/-- What a call redeems for a set descends from a code. -/
theorem Redeems.exists_stemsFrom (hsealer : service.codec.sealer.Faithful)
    (hredeems : service.RedeemsReturned caches run) {before rest : List Call}
    (hrun : run = before ++ call :: rest) (h : service.Redeems call set claims) :
    ∃ code, ∃ token ∈ call.operation.redeemed?, service.codec.Reads token claims ∧
      service.StemsFrom caches run code token := by
  obtain ⟨token, htoken, hreads, htype⟩ := h.exists_token
  have hreturned := hredeems before call rest hrun token htoken claims hreads htype
  obtain ⟨code, hstems⟩ := hreturned.exists_stemsFrom hsealer hredeems hrun hreads htype
  exact ⟨code, token, htoken, hreads, hstems⟩

/-- The tokens of a set read as claims of identifiers that the call drew, each of its own. -/
theorem Redeems.exists_ids (hsealer : service.codec.sealer.Faithful)
    (h : service.Redeems call set claims) :
    ∃ ids, ids.Sublist call.operation.drawn ∧
      List.Forall₂ service.codec.ReadsWithId set.tokens ids := by
  cases h with
  | @exchange now draw request code hcall hparse h =>
    have haccess : service.codec.ReadsWithId set.accessToken draw.accessId := by
      rw [← Claims.id_of_derive h.derived]
      exact Codec.readsWithId_of_issue hsealer h.made.issued
    rw [hcall, TokenSet.tokens]
    cases hrefreshToken : set.refreshToken with
    | none => exact ⟨[draw.accessId], by simp [Operation.drawn], .cons haccess .nil⟩
    | some token =>
      obtain ⟨refresh, hderived, hissue⟩ := h.refresh token hrefreshToken
      have hrefresh : service.codec.ReadsWithId token draw.refreshId := by
        rw [← Claims.id_of_derive hderived]
        exact Codec.readsWithId_of_issue hsealer hissue
      exact ⟨[draw.accessId, draw.refreshId], List.Sublist.refl _,
        .cons haccess (.cons hrefresh .nil)⟩
  | @refresh now draw request refresh hcall hparse h =>
    obtain ⟨-, hderived⟩ := RefreshClaims.accessToken_eq_ok_iff.mp h.derived
    have haccess : service.codec.ReadsWithId set.accessToken draw.accessId := by
      rw [← Claims.id_of_derive hderived]
      exact Codec.readsWithId_of_issue hsealer h.made.issued
    rw [hcall, TokenSet.tokens, h.refresh_eq_none]
    exact ⟨[draw.accessId], List.Sublist.refl _, .cons haccess .nil⟩

/-- The tokens that a run mints read as claims of identifiers that the run drew, each of its own. -/
theorem exists_ids_minted (hsealer : service.codec.sealer.Faithful) (caches : Caches)
    (run : List Call) :
    ∃ ids, ids.Sublist (run.flatMap (·.operation.drawn)) ∧
      List.Forall₂ service.codec.ReadsWithId (service.minted caches run) ids := by
  induction run generalizing caches with
  | nil => exact ⟨[], List.Sublist.refl _, .nil⟩
  | cons call rest ih =>
    obtain ⟨later, hlater, hrest⟩ := ih (service.perform call caches).1
    obtain ⟨ids, hids, hcall⟩ : ∃ ids, ids.Sublist call.operation.drawn ∧
        List.Forall₂ service.codec.ReadsWithId (service.perform call caches).2.minted ids := by
      unfold Answer.minted
      split
      · rename_i set hset
        obtain ⟨claims, hredeems⟩ := redeems_of_perform hset
        exact hredeems.exists_ids hsealer
      · exact ⟨[], List.nil_sublist _, .nil⟩
    rw [minted, List.flatMap_cons]
    exact ⟨ids ++ later, hids.append hlater, List.rel_append hcall hrest⟩

/-- Over every run the tokens stay within the codes that they descend from. Each token of a set
descends from a code that was issued, and until it expires it is parsed as claims of its type that
have no challenge and are contained in every code that it descends from. All minted tokens have
distinct identifiers, which no claims that were issued have. -/
theorem minted_within_codes {service : Service Caches} (hsealer : service.codec.sealer.Faithful)
    {caches : Caches} {run : List Call} (hcodes : IssuesBuilt run)
    (hredeems : service.RedeemsReturned caches run) (hfresh : FreshDraws run) :
    (∀ before call rest set, run = before ++ call :: rest →
      (service.perform call (service.after caches before)).2 = .set (.ok set) →
        ∀ type token, (type, token) ∈ set.typedTokens →
          (∃ code, service.StemsFrom caches run code token) ∧
          ∃ claims, claims.type = type ∧ service.codec.Carries token claims ∧
            claims.codeChallenge = none ∧
            ∀ code, service.StemsFrom caches run code token →
              claims.common.ContainedIn code.common) ∧
    ∃ ids, ids.Nodup ∧ (∀ id ∈ ids, id ∉ run.flatMap (·.operation.claimed)) ∧
      List.Forall₂ service.codec.ReadsWithId (service.minted caches run) ids := by
  refine ⟨fun before call rest set hrun hset type token htyped => ?_, ?_⟩
  · obtain ⟨redeemed, hredeemed⟩ := redeems_of_perform hset
    obtain ⟨code, parent, hparent, hreads, hstems⟩ :=
      hredeemed.exists_stemsFrom hsealer hredeems hrun
    obtain ⟨-, hreadable⟩ := hstems.contained hsealer hcodes redeemed hreads
    obtain ⟨claims, htype, hchallenge, hwithin⟩ :=
      hredeemed.carries hsealer hreadable _ htyped
    refine ⟨⟨code, .minted hstems hrun hparent hset (set.mem_tokens_of_typed htyped)⟩, claims,
      htype, hwithin.carries, hchallenge, fun other hother => ?_⟩
    have hread : service.codec.Reads token claims :=
      hwithin.carries.reads hwithin.readable.wellFormed.issuedAt_lt
    exact (hother.contained hsealer hcodes claims hread).1
  · obtain ⟨ids, hsublist, hids⟩ := service.exists_ids_minted hsealer caches run
    refine ⟨ids, hsublist.nodup hfresh.nodup, fun id hid => ?_, hids⟩
    exact hfresh.unclaimed id (hsublist.subset hid)

/-- Nothing is redeemed where nothing is called. -/
theorem redeemsReturned_nil : service.RedeemsReturned caches [] := by
  intro before call rest hrun
  simp at hrun

/-- A run that redeems what it returned may go on to redeem what it returned. -/
theorem RedeemsReturned.snoc (h : service.RedeemsReturned caches run)
    (hcall : ∀ token ∈ call.operation.redeemed?, service.Returned caches run token) :
    service.RedeemsReturned caches (run ++ [call]) := by
  intro before other rest hrun token htoken claims hreads htype
  rcases Call.split_snoc hrun with ⟨rfl, rfl⟩ | ⟨others, hrun⟩
  · exact hcall token htoken
  · exact h before other others hrun token htoken claims hreads htype

/-- The sample client is issued the code for offline access. -/
def issuingCall : Call :=
  ⟨sampleClock, .issueCode Codec.sampleNonce offlineCode⟩

/-- The sample client redeems a code. -/
def redeemingCall (token : String) : Call :=
  ⟨sampleClock, .exchange sampleClock.reading sampleDraw (sampleRequest token)⟩

/-- The sample client redeems a refresh token for a part of its scope. -/
def renewingCall (refreshToken : String) : Call :=
  ⟨laterSampleClock, .refresh laterSampleClock.reading renewalDraw
    ⟨refreshToken, "client", some (Scope.ofText "openid email")⟩⟩

/-- A code is issued, redeemed, and its refresh token redeemed. -/
def offlineRun (token refreshToken : String) : List Call :=
  [issuingCall, redeemingCall token, renewingCall refreshToken]

/-- The sample run issues a code that was built. -/
theorem issuesBuilt_offline (token refreshToken : String) :
    IssuesBuilt (offlineRun token refreshToken) := by
  intro call hcall nonce code hissue
  simp only [offlineRun, List.mem_cons, List.not_mem_nil, or_false] at hcall
  rcases hcall with rfl | rfl | rfl
  · obtain ⟨-, rfl⟩ := Operation.issueCode.inj hissue
    exact ⟨offlineCode_built, Codec.sampleCode_integral⟩
  · cases hissue
  · cases hissue

/-- The draws of the sample run are fresh. -/
theorem freshDraws_offline (token refreshToken : String) :
    FreshDraws (offlineRun token refreshToken) := by
  have hnodup : [sampleDraw.accessId, sampleDraw.refreshId, renewalDraw.accessId].Nodup := by
    decide
  have hunclaimed : ∀ id ∈ [sampleDraw.accessId, sampleDraw.refreshId, renewalDraw.accessId],
      id ∉ [offlineCode.common.id] := by
    decide
  exact ⟨hnodup, hunclaimed⟩

/-- The sample run returns a code, a set with a refresh token, and the set of its renewal. -/
theorem exists_answers_offline :
    ∃ token first refreshToken renewed,
      sampleService.issueCode Codec.sampleNonce offlineCode = .ok token ∧
      sampleService.exchange sampleClock sampleClock.reading sampleDraw (sampleRequest token) {} =
        (Caches.used {} offlineCode, .ok first) ∧
      first.refreshToken = some refreshToken ∧
      sampleService.refresh laterSampleClock laterSampleClock.reading renewalDraw
        ⟨refreshToken, "client", some (Scope.ofText "openid email")⟩
        (Caches.used {} offlineCode) = (Caches.used {} offlineCode, .ok renewed) := by
  obtain ⟨token, first, refreshToken, hissue, hexchange, hrefreshToken, hwithin⟩ :=
    exists_exchange_offline
  obtain ⟨renewed, hrenewed, -⟩ := @exists_refresh sampleConfig Codec.sampleCodec laterSampleClock
    renewalDraw offlineRefresh (Caches.used {} offlineCode) Codec.sampleCodec_faithful rfl
    offlineCode.common ⟨refreshToken, "client", some (Scope.ofText "openid email")⟩ hwithin rfl
    (renewable_offline rfl (by decide) (by decide +kernel))
  exact ⟨token, first, refreshToken, renewed, hissue, hexchange, hrefreshToken, hrenewed⟩

/-- The access token of a narrowed refresh, two redemptions away from the code for offline access,
descends from the code and is contained in it. -/
theorem minted_within_codes_sample :
    ∃ token refreshToken set claims,
      (sampleService.perform (renewingCall refreshToken)
        (sampleService.after {} [issuingCall, redeemingCall token])).2 = .set (.ok set) ∧
      sampleService.StemsFrom {} (offlineRun token refreshToken) offlineCode set.accessToken ∧
      Codec.sampleCodec.Carries set.accessToken claims ∧
      claims.common.ContainedIn offlineCode.common := by
  obtain ⟨token, first, refreshToken, renewed, hissue, hexchange, hrefreshToken, hrenewed⟩ :=
    exists_answers_offline
  have hmem : refreshToken ∈ first.tokens := by simp [TokenSet.tokens, hrefreshToken]
  -- What the three calls answer, each after the calls before it.
  have hcode : (sampleService.perform issuingCall {}).2 = .token (.ok token) :=
    congrArg Answer.token hissue
  have hfirst : (sampleService.perform (redeemingCall token)
      (sampleService.after {} [issuingCall])).2 = .set (.ok first) :=
    congrArg Answer.set (congrArg Prod.snd hexchange)
  have hused : sampleService.after {} [issuingCall, redeemingCall token] =
      Caches.used {} offlineCode :=
    congrArg Prod.fst hexchange
  have hset : (sampleService.perform (renewingCall refreshToken)
      (sampleService.after {} [issuingCall, redeemingCall token])).2 = .set (.ok renewed) := by
    rw [hused]
    exact congrArg Answer.set (congrArg Prod.snd hrenewed)
  have hredeems : sampleService.RedeemsReturned {} (offlineRun token refreshToken) := by
    refine @RedeemsReturned.snoc sampleService {} [issuingCall, redeemingCall token] _
      (@RedeemsReturned.snoc sampleService {} [issuingCall] _
        (redeemsReturned_nil.snoc fun token htoken =>
          absurd htoken (Option.not_mem_none token)) ?_) ?_
    · rintro _ ⟨⟩
      exact ⟨[], issuingCall, [], rfl, Answer.mem_returned_iff.mpr (.inl hcode)⟩
    · rintro _ ⟨⟩
      exact ⟨[issuingCall], redeemingCall token, [], rfl,
        Answer.mem_returned_iff.mpr (.inr ⟨first, hfirst, hmem⟩)⟩
  -- The renewed token goes back to the code by way of the refresh token.
  have hcodeStems : sampleService.StemsFrom {} (offlineRun token refreshToken) offlineCode token :=
    .issued (rfl : _ = [] ++ issuingCall :: [redeemingCall token, renewingCall refreshToken]) rfl
      hcode
  have hrefreshStems : sampleService.StemsFrom {} (offlineRun token refreshToken) offlineCode
      refreshToken :=
    .minted hcodeStems
      (rfl : _ = [issuingCall] ++ redeemingCall token :: [renewingCall refreshToken]) rfl hfirst
      hmem
  have hstems : sampleService.StemsFrom {} (offlineRun token refreshToken) offlineCode
      renewed.accessToken :=
    .minted hrefreshStems
      (rfl : _ = [issuingCall, redeemingCall token] ++ renewingCall refreshToken :: []) rfl hset
      List.mem_cons_self
  obtain ⟨hwithin, -⟩ := minted_within_codes Codec.sampleCodec_faithful
    (issuesBuilt_offline token refreshToken) hredeems (freshDraws_offline token refreshToken)
  obtain ⟨-, claims, -, hcarries, -, hcontained⟩ :=
    hwithin [issuingCall, redeemingCall token] (renewingCall refreshToken) [] renewed rfl hset
      .accessToken renewed.accessToken List.mem_cons_self
  exact ⟨token, refreshToken, renewed, claims, hset, hstems, hcarries,
    hcontained offlineCode hstems⟩

end Service

end OpaqueTokens
