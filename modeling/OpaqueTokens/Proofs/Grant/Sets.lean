import OpaqueTokens.Proofs.Claims.Containment
import OpaqueTokens.Proofs.Grant.Exchange

/-!
# What sets are made of

A set is made around the claims of its access token. After a code is redeemed these claims follow
from the code, and so do those of the refresh token, if there is one; after a refresh they follow
from the refresh token, and there is none. This is so with any stores: they decide whether a grant
is accepted, and nothing about what is made of it. A code is sealed with the claims that it is
issued for.
-/

namespace OpaqueTokens

open Time (Instant Reading Span)

/-- A token carries claims that are contained in those of a grant, and can be read back
themselves. -/
structure Codec.CarriesWithin (codec : Codec) (token : String) (claims : TokenClaims)
    (grant : Claims) : Prop where
  carries : codec.Carries token claims
  contained : claims.common.ContainedIn grant
  readable : claims.common.Readable

/-- With a faithful sealer the token of what is derived from readable claims of a grant carries it
within the grant. -/
theorem Codec.carriesWithin_of_derive {codec : Codec} (hsealer : codec.sealer.Faithful)
    {claims grant : Claims} (hclaims : claims.Readable) (hgrant : claims.ContainedIn grant)
    {lifetime : Span} {now : Instant} {fresh : TokenId} {minted : TokenClaims} {nonce : Nonce}
    {token : String} (hderived : claims.derive lifetime now fresh = .ok minted.common)
    (hissue : codec.issue nonce minted = .ok token) : codec.CarriesWithin token minted grant := by
  have hreadable : minted.common.Readable := hclaims.derive hderived
  obtain ⟨hcontained, -⟩ :=
    Claims.contained_of_derive hclaims.wellFormed.floor_authTime hderived
  exact ⟨carries_of_issue hsealer hreadable hissue, hcontained.trans hgrant, hreadable⟩

/-- A set is made around the token of its access claims: its scope is that of the claims, and its
seconds are those for which the claims are valid. -/
structure TokenSet.MadeAround (set : TokenSet) (codec : Codec) (nonce : Nonce) : Prop where
  issued : codec.issue nonce (.access set.claims) = .ok set.accessToken
  scope : set.scope = set.claims.common.scope
  expiresIn : set.expiresIn = set.claims.common.expiresIn set.claims.common.issuedAt

namespace Service

variable {σ : Type} {service : Service σ} {now : Instant} {draw : Draw} {set : TokenSet}

/-- A set is what redeeming a code makes: its claims follow from the code, and it holds a refresh
token whose claims follow from the code just when the configuration grants one. -/
structure Mints (service : Service σ) (now : Instant) (draw : Draw) (code : CodeClaims)
    (set : TokenSet) : Prop where
  derived : code.common.derive service.config.lifetimes.accessToken now draw.accessId =
    .ok set.claims.common
  made : set.MadeAround service.codec draw.accessNonce
  refresh_isSome : set.refreshToken.isSome = service.mintsRefresh code
  refresh : ∀ token ∈ set.refreshToken, ∃ refresh : RefreshClaims,
    code.common.derive service.config.lifetimes.refreshToken now draw.refreshId =
      .ok refresh.common ∧
    service.codec.issue draw.refreshNonce (.refresh refresh) = .ok token

/-- A set is what a refresh makes: its claims follow from the refresh token, and it holds no refresh
token. -/
structure Renews (service : Service σ) (now : Instant) (draw : Draw) (requested : Option Scope)
    (refresh : RefreshClaims) (set : TokenSet) : Prop where
  derived : refresh.accessToken requested service.config.lifetimes.accessToken now draw.accessId =
    .ok set.claims
  made : set.MadeAround service.codec draw.accessNonce
  refresh_eq_none : set.refreshToken = none

/-- A code that is issued is sealed as it is. -/
theorem issue_of_issueCode {nonce : Nonce} {code : CodeClaims} {token : String}
    (h : service.issueCode nonce code = .ok token) :
    service.codec.issue nonce (.code code) = .ok token := by
  rw [issueCode, Outcome.ite_error_eq_ok_iff, Outcome.ite_error_eq_ok_iff] at h
  exact Outcome.mapError_eq_ok_iff.mp h.2.2

/-- A set with its access claims and its refresh token. -/
theorem madeAround_of_tokenSet {nonce : Nonce} {access : AccessClaims}
    {refreshToken : Option String} (h : service.tokenSet nonce access refreshToken = .ok set) :
    set.claims = access ∧ set.refreshToken = refreshToken ∧
      set.MadeAround service.codec nonce := by
  obtain ⟨token, htoken, hset⟩ := Outcome.bind_eq_ok_iff.mp h
  obtain rfl := Except.ok.inj hset
  exact ⟨rfl, rfl, Outcome.mapError_eq_ok_iff.mp htoken, rfl, rfl⟩

/-- Minting makes what it is asked for. -/
theorem mints_of_mint {code : CodeClaims} (h : service.mint now draw code = .ok set) :
    service.Mints now draw code set := by
  rw [mint_eq] at h
  obtain ⟨access, haccess, h⟩ := Outcome.bind_eq_ok_iff.mp h
  obtain ⟨refreshToken, hrefreshToken, htokenSet⟩ := Outcome.bind_eq_ok_iff.mp h
  obtain ⟨derived, hderived, rfl⟩ :=
    Outcome.map_eq_ok_iff.mp (Outcome.mapError_eq_ok_iff.mp haccess)
  obtain ⟨hclaims, rfl, hmade⟩ := madeAround_of_tokenSet htokenSet
  refine ⟨by rw [hclaims, hderived], hmade, ?_, ?_⟩
  · split at hrefreshToken
    · rename_i hmints
      obtain ⟨refresh, -, hsealed⟩ := Outcome.bind_eq_ok_iff.mp hrefreshToken
      obtain ⟨sealed, -, hsome⟩ := Outcome.map_eq_ok_iff.mp hsealed
      rw [← hsome, hmints]
      rfl
    · rename_i hmints
      rw [← Except.ok.inj hrefreshToken, Bool.eq_false_iff.mpr hmints]
      rfl
  · intro token htoken
    rw [Option.mem_def] at htoken
    rw [htoken] at hrefreshToken
    split at hrefreshToken
    · obtain ⟨refresh, hrefresh, hsealed⟩ := Outcome.bind_eq_ok_iff.mp hrefreshToken
      obtain ⟨other, hother, rfl⟩ :=
        Outcome.map_eq_ok_iff.mp (Outcome.mapError_eq_ok_iff.mp hrefresh)
      obtain ⟨sealed, hissue, hsome⟩ := Outcome.map_eq_ok_iff.mp hsealed
      obtain rfl := Option.some.inj hsome
      exact ⟨⟨other⟩, hother, Outcome.mapError_eq_ok_iff.mp hissue⟩
    · cases hrefreshToken

/-- The tokens of a redeemed code are those that are minted for it. -/
theorem mint_of_redeem {request : CodeExchange} {code : CodeClaims}
    (h : service.redeem now draw request (.code code) = .ok set) :
    service.mint now draw code = .ok set := by
  rw [redeem] at h
  split at h
  · obtain ⟨-, -, hmint⟩ := Outcome.bind_eq_ok_iff.mp h
    exact hmint
  · cases h

/-- Renewing makes what it is asked for. -/
theorem renews_of_renew {request : RefreshExchange} {refresh : RefreshClaims}
    (h : service.renew now draw request (.refresh refresh) = .ok set) :
    service.Renews now draw request.scope refresh set := by
  obtain ⟨access, haccess, htokenSet⟩ := Outcome.bind_eq_ok_iff.mp h
  obtain ⟨rfl, hnone, hmade⟩ := madeAround_of_tokenSet htokenSet
  exact ⟨haccess, hmade, hnone⟩

/-- An exchange that succeeds makes a set of the code that its token is parsed as. -/
theorem mints_of_exchange {moments : Moments} {now : Reading} {request : CodeExchange} {state : σ}
    (h : (service.exchange moments now draw request state).2 = .ok set) :
    ∃ code, service.codec.parse moments.unsealing request.code .authorizationCode =
        .ok (.code code) ∧
      service.Mints now.universal draw code set := by
  obtain ⟨grant, hgrant, hredeem⟩ := Outcome.bind_eq_ok_iff.mp h
  have hparse := GrantValidator.parse_of_validate hgrant
  cases grant with
  | code code => exact ⟨code, hparse, mints_of_mint (mint_of_redeem hredeem)⟩
  | refresh refresh => cases Codec.type_of_parse hparse

/-- A refresh that succeeds makes a set of the refresh token that its token is parsed as. -/
theorem renews_of_refresh {moments : Moments} {now : Reading} {request : RefreshExchange}
    {state : σ} (h : (service.refresh moments now draw request state).2 = .ok set) :
    ∃ refresh, service.codec.parse moments.unsealing request.refreshToken .refreshToken =
        .ok (.refresh refresh) ∧
      service.Renews now.universal draw request.scope refresh set := by
  obtain ⟨grant, hgrant, hrenew⟩ := Outcome.bind_eq_ok_iff.mp h
  have hparse := GrantValidator.parse_of_validate hgrant
  cases grant with
  | code code => cases hrenew
  | refresh refresh => exact ⟨refresh, hparse, renews_of_renew hrenew⟩

end Service

end OpaqueTokens
