import OpaqueTokens.Proofs.Grant.Exchange
import OpaqueTokens.Proofs.Reading

/-!
# Runs of a service

A run is a list of calls over the caches in memory, one after the other. It mixes the operations of
the service, calls of its validators on their own, and clean-ups of either cache in any order. The
clock moves between the calls and in the course of each of them, but it never goes back. What a call
does to the caches is said once here: it leaves them alone, marks the code that it presents, extends
the record of the lineage that it presents a token of, or cleans one of them up.
-/

namespace OpaqueTokens

open Time (Deadline Instant Reading Span)

/-- What can be called. A validator of grants that is called on its own may revoke lineages on
replay in its own way. -/
inductive Operation where
  | issueCode (nonce : Nonce) (claims : CodeClaims)
  | issueAccess (nonce : Nonce) (claims : AccessClaims)
  | exchange (now : Reading) (draw : Draw) (request : CodeExchange)
  | validateGrant (replayRevocation : Option Span) (now : Reading) (token : String)
    (kind : GrantKind) (client : String)
  | refresh (now : Reading) (draw : Draw) (request : RefreshExchange)
  | validateAccess (now : Instant) (token : String)
  | revoke (token client : String)
  | cleanupReplay
  | cleanupRevocation

/-- The token that an operation is called with. -/
def Operation.token? : Operation → Option String
  | .exchange _ _ request => some request.code
  | .validateGrant _ _ token _ _ => some token
  | .refresh _ _ request => some request.refreshToken
  | .validateAccess _ token => some token
  | .revoke token _ => some token
  | .issueCode _ _ | .issueAccess _ _ | .cleanupReplay | .cleanupRevocation => none

/-- What is answered. -/
inductive Answer where
  | token (outcome : Except GrantError String)
  | set (outcome : Except GrantError TokenSet)
  | grant (outcome : Except GrantError ValidatedGrant)
  | access (outcome : Except GrantError AccessClaims)
  | revoked (outcome : Except GrantError Unit)
  | removed (count : Nat)

/-- The tokens of a set. -/
def TokenSet.tokens (set : TokenSet) : List String :=
  set.accessToken :: set.refreshToken.toList

/-- The tokens that an answer to a redeemed grant hands out. -/
def Answer.minted : Answer → List String
  | .set (.ok minted) => minted.tokens
  | _ => []

/-- The tokens that an answer hands out are those of a set. -/
theorem Answer.mem_minted_iff {answer : Answer} {token : String} :
    token ∈ answer.minted ↔ ∃ set, answer = .set (.ok set) ∧ token ∈ set.tokens := by
  unfold Answer.minted
  split
  · simp
  · rename_i hother
    simp only [List.not_mem_nil, false_iff, not_exists, not_and]
    intro set hset
    exact absurd hset (hother set)

/-- An operation, and what the clock shows in the course of it. -/
structure Call where
  moments : Moments
  operation : Operation

/-- A call names no time but that of its start when a code or a refresh token is redeemed or an
access token is validated. -/
def Call.ByClock (call : Call) : Prop :=
  match call.operation with
  | .exchange now _ _ | .refresh now _ _ => now = call.moments.start.reading
  | .validateAccess now _ => now = call.moments.start
  | .issueCode _ _ | .issueAccess _ _ | .validateGrant _ _ _ _ _ | .revoke _ _ | .cleanupReplay
  | .cleanupRevocation => True

/-- A call presents claims: its token reads as them, though they may have expired by now. -/
def Call.Presents (call : Call) (codec : Codec) (claims : TokenClaims) : Prop :=
  ∃ token ∈ call.operation.token?, codec.Reads token claims

/-- The clock never goes back, in the course of a call or from one call to a later one. -/
structure InOrder (run : List Call) : Prop where
  ordered : ∀ call ∈ run, call.moments.Ordered
  pairwise : run.Pairwise fun earlier later => earlier.moments.lookup ≤ later.moments.start

/-- A deadline passes in the course of a call: it lies ahead at the start, and not any more when
something is looked up. -/
structure Moments.Straddles (moments : Moments) (deadline : Deadline) : Prop where
  start_lt : moments.start.deadline < deadline
  le_lookup : deadline ≤ moments.lookup.deadline

/-- What a call looks up, it looks up after it has started. -/
theorem Moments.Ordered.start_le_lookup {moments : Moments} (h : moments.Ordered) :
    moments.start ≤ moments.lookup :=
  Int.le_trans h.start_le h.unsealing_le

/-- The clock does not go back in any part of a run. -/
theorem InOrder.sublist {part run : List Call} (h : InOrder run) (hpart : part.Sublist run) :
    InOrder part :=
  ⟨fun call hcall => h.ordered call (hpart.subset hcall), h.pairwise.sublist hpart⟩

/-- The clock does not go back up to a call. -/
theorem InOrder.upto {before rest : List Call} {last : Call}
    (h : InOrder (before ++ last :: rest)) : InOrder (before ++ [last]) :=
  h.sublist (((List.nil_sublist rest).cons_cons last).append_left before)

/-- The clock does not go back from one call to another. -/
theorem InOrder.segment {before between rest : List Call} {first last : Call}
    (h : InOrder (before ++ first :: (between ++ last :: rest))) :
    InOrder (first :: between ++ [last]) :=
  InOrder.upto (h.sublist (List.sublist_append_right before _))

/-- Calls look up in the order in which they are made. -/
theorem InOrder.lookup_le {run : List Call} (h : InOrder run) :
    run.Pairwise fun earlier later => earlier.moments.lookup ≤ later.moments.lookup :=
  h.pairwise.imp_of_mem fun _ hlater hle =>
    Int.le_trans hle (h.ordered _ hlater).start_le_lookup

/-- Calls look up before the last one does. -/
theorem InOrder.lookup_le_last {before : List Call} {last : Call} (h : InOrder (before ++ [last])) :
    ∀ call ∈ before ++ [last], call.moments.lookup ≤ last.moments.lookup := by
  intro call hcall
  obtain ⟨-, -, hcross⟩ := List.pairwise_append.mp h.lookup_le
  rcases List.mem_append.mp hcall with hbefore | hself
  · exact hcross call hbefore last List.mem_cons_self
  · exact List.mem_singleton.mp hself ▸ Int.le_refl _

@[simp]
theorem Moments.ordered_still (clock : Instant) : (clock : Moments).Ordered :=
  ⟨Int.le_refl _, Int.le_refl _⟩

/-- No deadline passes while the clock stands still. -/
@[simp]
theorem Moments.not_straddles_still (clock : Instant) (deadline : Deadline) :
    ¬(clock : Moments).Straddles deadline :=
  fun h => absurd h.start_lt (Int.not_lt.mpr h.le_lookup)

@[simp]
theorem inOrder_nil : InOrder [] :=
  ⟨List.forall_mem_nil _, .nil⟩

/-- A run is in order if its first call is, and the other calls come later and are in order. -/
@[simp]
theorem inOrder_cons {call : Call} {rest : List Call} :
    InOrder (call :: rest) ↔ call.moments.Ordered ∧
      (∀ later ∈ rest, call.moments.lookup ≤ later.moments.start) ∧ InOrder rest := by
  constructor
  · rintro ⟨hordered, hpairwise⟩
    obtain ⟨hcall, hrest⟩ := List.forall_mem_cons.mp hordered
    obtain ⟨hlater, hpairwise⟩ := List.pairwise_cons.mp hpairwise
    exact ⟨hcall, hlater, hrest, hpairwise⟩
  · rintro ⟨hcall, hlater, hrest, hpairwise⟩
    exact ⟨List.forall_mem_cons.mpr ⟨hcall, hrest⟩, .cons hlater hpairwise⟩

/-- A moment of a run with one call more is the last one, or a moment of the run. -/
theorem Call.split_snoc {run before rest : List Call} {last call : Call}
    (h : run ++ [last] = before ++ call :: rest) :
    (before = run ∧ call = last) ∨ ∃ others, run = before ++ call :: others := by
  rcases List.eq_nil_or_concat rest with rfl | ⟨others, other, rfl⟩
  · obtain ⟨hrun, hlast⟩ := List.append_inj' h rfl
    exact .inl ⟨hrun.symm, (List.singleton_inj.mp hlast).symm⟩
  · rw [List.concat_eq_append, ← List.cons_append, ← List.append_assoc] at h
    exact .inr ⟨others, (List.append_inj' h rfl).1⟩

namespace Service

/-- One call: the caches after it, and its answer. -/
def perform (service : Service Caches) (call : Call) (caches : Caches) : Caches × Answer :=
  match call.operation with
  | .issueCode nonce claims => (caches, .token (service.issueCode nonce claims))
  | .issueAccess nonce claims => (caches, .token (service.issueAccess nonce claims))
  | .exchange now draw request =>
    let (caches, outcome) := service.exchange call.moments now draw request caches
    (caches, .set outcome)
  | .validateGrant replayRevocation now token kind client =>
    let (caches, outcome) :=
      (GrantValidator.mk service.codec service.stores replayRevocation).validate call.moments now
        token kind client caches
    (caches, .grant outcome)
  | .refresh now draw request =>
    let (caches, outcome) := service.refresh call.moments now draw request caches
    (caches, .set outcome)
  | .validateAccess now token =>
    (caches, .access (service.validateAccess call.moments now token caches))
  | .revoke token client =>
    let (caches, outcome) := service.revoke call.moments token client caches
    (caches, .revoked outcome)
  | .cleanupReplay =>
    let (replay, count) := caches.replay.cleanup call.moments.lookup
    ({ caches with replay }, .removed count)
  | .cleanupRevocation =>
    let (revocation, count) := caches.revocation.cleanup call.moments.lookup
    ({ caches with revocation }, .removed count)

/-- The caches after a run. -/
def after (service : Service Caches) (caches : Caches) (calls : List Call) : Caches :=
  calls.foldl (fun caches call => (service.perform call caches).1) caches

theorem after_append (service : Service Caches) (caches : Caches) (a b : List Call) :
    service.after caches (a ++ b) = service.after (service.after caches a) b :=
  List.foldl_append

theorem after_cons (service : Service Caches) (caches : Caches) (call : Call)
    (calls : List Call) :
    service.after caches (call :: calls) =
      service.after (service.perform call caches).1 calls :=
  List.foldl_cons

/-- The tokens that a run hands out for redeemed grants. -/
def minted (service : Service Caches) (caches : Caches) : List Call → List String
  | [] => []
  | call :: rest =>
    (service.perform call caches).2.minted ++
      service.minted (service.perform call caches).1 rest

theorem minted_append (service : Service Caches) (caches : Caches) (a b : List Call) :
    service.minted caches (a ++ b) =
      service.minted caches a ++ service.minted (service.after caches a) b := by
  induction a generalizing caches with
  | nil => rfl
  | cons call rest ih =>
    rw [List.cons_append, minted, minted, after_cons, ih, List.append_assoc]

/-- A call accepts a code: it presents the code to a validator of grants, which passes it. -/
inductive Accepts (service : Service Caches) (call : Call) (caches : Caches) :
    String → CodeClaims → Prop where
  | exchange {now : Reading} {draw : Draw} {request : CodeExchange} {code : CodeClaims}
    (hcall : call.operation = .exchange now draw request)
    (h : (service.grantValidator.validate call.moments now request.code .authorizationCode
      request.clientId caches).2 = .ok (.code code)) :
    Accepts service call caches request.code code
  | validate {replayRevocation : Option Span} {now : Reading} {token : String} {kind : GrantKind}
    {client : String} {code : CodeClaims}
    (hcall : call.operation = .validateGrant replayRevocation now token kind client)
    (h : ((GrantValidator.mk service.codec service.stores replayRevocation).validate call.moments
      now token kind client caches).2 = .ok (.code code)) :
    Accepts service call caches token code

end Service

namespace GrantValidator

variable {codec : Codec} {replayRevocation : Option Span} {moments : Moments} {now : Reading}
  {token : String} {kind : GrantKind} {client : String} {caches : Caches}

/-- A code that passes was parsed, had no mark, and has one from then on. -/
theorem validate_eq_ok_code {code : CodeClaims}
    (h : ((inMemory codec replayRevocation).validate moments now token kind client caches).2 =
      .ok (.code code)) :
    codec.parse moments.unsealing token .authorizationCode = .ok (.code code) ∧
      caches.replay.isMarked code.common.id moments.lookup = false ∧
      ((inMemory codec replayRevocation).validate moments now token kind client caches).1 =
        caches.used code := by
  have hparse : codec.parse moments.unsealing token kind.tokenType = .ok (.code code) :=
    claims_of_validate h
  have hkind : kind.tokenType = .authorizationCode := (Codec.type_of_parse hparse).symm
  rw [validate_of_parse _ _ _ _ _ _ hparse, validateClaims_code] at h ⊢
  simp only [apply_ite Prod.snd, Outcome.ite_error_eq_ok_iff] at h
  obtain ⟨hclient, hexpired, hmarked, -⟩ := h
  refine ⟨hkind ▸ hparse, by simpa using hmarked, ?_⟩
  rw [if_neg hclient, if_neg hexpired, if_neg hmarked]

end GrantValidator

/-- What a call can do to the caches. -/
inductive Call.Effect (call : Call) (codec : Codec) (caches : Caches) : Caches → Prop where
  | none : Effect call codec caches caches
  | used {code : CodeClaims} (h : call.Presents codec (.code code))
    (hunmarked : caches.replay.isMarked code.common.id call.moments.lookup = false) :
    Effect call codec caches (caches.used code)
  | revoked {claims : TokenClaims} (h : call.Presents codec claims) (deadline : Time.Deadline) :
    Effect call codec caches { caches with
      revocation := caches.revocation.revokeUntil claims.common.lineage deadline }
  | cleanedReplay :
    Effect call codec caches { caches with
      replay := (caches.replay.cleanup call.moments.lookup).1 }
  | cleanedRevocation :
    Effect call codec caches { caches with
      revocation := (caches.revocation.cleanup call.moments.lookup).1 }

namespace Service

variable {config : Config} {codec : Codec} {call : Call} {token : String}

/-- Validating a grant marks a code that is not marked, or revokes the lineage of one that is, or
does nothing. -/
theorem effect_validate (htoken : token ∈ call.operation.token?) (replayRevocation : Option Span)
    (now : Reading) (kind : GrantKind) (client : String) (caches : Caches) :
    call.Effect codec caches
      ((GrantValidator.inMemory codec replayRevocation).validate call.moments now token kind client
        caches).1 := by
  cases hparse : codec.parse call.moments.unsealing token kind.tokenType with
  | error error =>
    rw [GrantValidator.validate_of_error _ _ _ _ _ _ hparse]
    exact .none
  | ok claims =>
    rw [GrantValidator.validate_of_parse _ _ _ _ _ _ hparse]
    cases claims with
    | code code =>
      have hpresents : call.Presents codec (.code code) := ⟨token, htoken, _, _, hparse⟩
      rw [GrantValidator.validateClaims_code]
      split
      · exact .none
      · split
        · exact .none
        · split
          · cases replayRevocation with
            | none => exact .none
            | some span => exact .revoked hpresents (now.after span)
          · rename_i hunmarked
            exact .used hpresents (by simpa using hunmarked)
    | refresh refresh =>
      rw [GrantValidator.validateClaims_refresh]
      exact .none
    | access access => exact absurd hparse (kind.parse_ne_access access)

/-- The claims that a request for revocation is about are what its token reads as. -/
theorem reads_of_revocable {moments : Moments} {claims : TokenClaims}
    (h : (inMemory config codec).revocable moments token = .ok (some claims)) :
    codec.Reads token claims := by
  rw [revocable] at h
  split at h
  · rename_i refresh hrefresh
    obtain rfl := Option.some.inj (Except.ok.inj h)
    exact ⟨_, _, Codec.parseRefresh_eq_ok_iff.mp hrefresh⟩
  · split at h
    · split at h
      · rename_i access haccess
        obtain rfl := Option.some.inj (Except.ok.inj h)
        exact ⟨_, _, Codec.parseAccess_eq_ok_iff.mp haccess⟩
      · grind
    · grind

/-- Revoking a token revokes its lineage, or does nothing. -/
theorem effect_revoke (htoken : token ∈ call.operation.token?) (client : String)
    (caches : Caches) :
    call.Effect codec caches
      ((inMemory config codec).revoke call.moments token client caches).1 := by
  unfold revoke
  split
  · exact .none
  · exact .none
  · rename_i claims hclaims
    dsimp only
    split
    · exact .none
    · split
      · exact .none
      · exact .revoked ⟨token, htoken, reads_of_revocable hclaims⟩ _

/-- What a call does to the caches. -/
theorem effect_perform (call : Call) (caches : Caches) :
    call.Effect codec caches ((inMemory config codec).perform call caches).1 := by
  obtain ⟨moments, operation⟩ := call
  cases operation with
  | exchange now draw request => exact effect_validate rfl _ now .authorizationCode _ caches
  | validateGrant replayRevocation now token kind client =>
    exact effect_validate rfl replayRevocation now kind client caches
  | refresh now draw request => exact effect_validate rfl _ now .refreshToken _ caches
  | revoke token client => exact effect_revoke rfl client caches
  | cleanupReplay => exact .cleanedReplay
  | cleanupRevocation => exact .cleanedRevocation
  | issueCode | issueAccess | validateAccess => exact .none

end Service

end OpaqueTokens
