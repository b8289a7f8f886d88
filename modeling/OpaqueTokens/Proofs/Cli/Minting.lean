import OpaqueTokens.Cli.Minting
import OpaqueTokens.Proofs.Grant.WorkingConfig
import OpaqueTokens.Proofs.Scope

/-!
# Codes that are minted by hand

A code that is minted by hand is made without a service, and no service is asked whether it may be.
It is one that a service of the configuration would have issued all the same: it names the issuer
and lives for the whole seconds of the configured lifetime. The service redeems it as it redeems its
own codes, so that only the verifier is left to decide, and the verifier is the one that the
challenge was made from, as the request gave it.
-/

namespace OpaqueTokens

open Crypto (Gcm.aead Gcm.aead_seals)
open Time (Instant Reading)

namespace Cli

namespace MintRequest

variable {request : MintRequest} {config : Config} {now : Instant} {fresh : TokenId}
  {code : CodeClaims} {stored : Option String}

/-- A verifier answers the challenge that a code is asked for with: it is the one behind the
challenge, and a challenge that shows it is allowed. Without a challenge every verifier will do,
unless the policy asks for challenges. -/
inductive AnsweredBy (request : MintRequest) (policy : PkcePolicy) : Option String → Prop where
  | unasked {verifier : Option String} (hnone : request.codeChallenge = none)
    (hforce : policy.force = false) : request.AnsweredBy policy verifier
  | s256 {verifier : String} (hmethod : request.codeChallengeMethod = some "S256")
    (hvalue : request.codeChallenge =
      some (Text.Base64.encodeUrl (Crypto.Sha256.digest (Text.utf8 verifier)))) :
    request.AnsweredBy policy (some verifier)
  | plain {verifier : String}
    (hmethod : request.codeChallengeMethod = none ∨ request.codeChallengeMethod = some "plain")
    (hallowed : policy.allowPlain = true) (hvalue : request.codeChallenge = some verifier) :
    request.AnsweredBy policy (some verifier)

/-- The challenge that is asked for is empty or of a method that there is not. -/
inductive ChallengeRefused (request : MintRequest) : Prop where
  | empty (h : request.codeChallenge = some "")
  | unknownMethod {value name : String} (hvalue : request.codeChallenge = some value)
    (hname : request.codeChallengeMethod = some name) (hs256 : name ≠ "S256")
    (hplain : name ≠ "plain")

/-- Why a code that is asked for cannot be minted: a name is empty, the challenge is refused, the
code would outlive the last second, or the cipher does not take it. -/
inductive Unmintable (request : MintRequest) (config : Config) (now : Instant) (fresh : TokenId) :
    Prop where
  | client (h : request.clientId = "")
  | subject (h : request.subject = "")
  | challenge (h : request.ChallengeRefused)
  | late (h : Time.lastSecond < now.seconds + config.lifetimes.authorizationCode.seconds)
  | tooLong {code : CodeClaims} (hclaims : request.claims config now fresh = .ok code)
    (h : fitsCipher (.code code) = false)

/-- The claims of a code are those that are asked for, with the issuer and for the whole seconds of
the lifetime of a configuration. -/
structure Describes (request : MintRequest) (config : Config) (now : Instant) (code : CodeClaims) :
    Prop where
  clientId : code.common.clientId.text = request.clientId
  subject : code.common.subject = request.subject
  redirectUri : code.common.redirectUri = request.redirectUri
  scope : code.common.scope = Scope.ofText request.scope
  issuer : code.common.issuer = config.issuer
  issuedAt : code.common.issuedAt = now.floor
  lifetime : code.common.expiresAt.nanos - code.common.issuedAt.nanos =
    config.lifetimes.authorizationCode.seconds * 1000000000
  challenge : request.storedChallenge = .ok code.codeChallenge

/-- A challenge is stored in the form that its value and its method lead to, and nothing is stored
where there is none. -/
theorem storedChallenge_eq_ok_iff :
    request.storedChallenge = .ok stored ↔
      (request.codeChallenge = none ∧ stored = none) ∨
        ∃ challenge : CodeChallenge, request.codeChallenge = some challenge.value ∧
          challenge.value ≠ "" ∧
          request.codeChallengeMethod.getD ChallengeMethod.plain.name = challenge.method.name ∧
          stored = some challenge.stored := by
  rw [storedChallenge]
  cases request.codeChallenge with
  | none =>
    constructor
    · rintro ⟨⟩
      exact .inl ⟨rfl, rfl⟩
    · rintro (⟨-, rfl⟩ | ⟨challenge, ⟨⟩, -⟩)
      rfl
  | some value =>
    simp only [Outcome.map_eq_ok_iff, CodeChallenge.ofRequest_eq_ok_iff]
    constructor
    · rintro ⟨challenge, ⟨hvalue, rfl, hmethod⟩, rfl⟩
      exact .inr ⟨challenge, rfl, hvalue, hmethod, rfl⟩
    · rintro (⟨⟨⟩, -⟩ | ⟨challenge, hsame, hvalue, hmethod, rfl⟩)
      obtain rfl := Option.some.inj hsame
      exact ⟨challenge, ⟨hvalue, rfl, hmethod⟩, rfl⟩

/-- A challenge can be stored unless it is refused. -/
theorem exists_storedChallenge_iff :
    (∃ stored, request.storedChallenge = .ok stored) ↔ ¬request.ChallengeRefused := by
  simp only [storedChallenge_eq_ok_iff]
  constructor
  · rintro ⟨stored, ⟨hnone, -⟩ | ⟨challenge, hsome, hvalue, hmethod, -⟩⟩
    · rintro (hempty | ⟨hsome, -, -, -⟩)
      · exact nomatch hnone.symm.trans hempty
      · exact nomatch hnone.symm.trans hsome
    · rintro (hempty | ⟨-, hname, hs256, hplain⟩)
      · exact hvalue (Option.some.inj (hsome.symm.trans hempty))
      · rw [hname, Option.getD_some] at hmethod
        exact (ChallengeMethod.exists_name_eq_iff.mp ⟨_, hmethod⟩).elim hs256 hplain
  · intro h
    cases hchallenge : request.codeChallenge with
    | none => exact ⟨none, .inl ⟨rfl, rfl⟩⟩
    | some value =>
      have hvalue : value ≠ "" := fun hempty => h (.empty (hempty ▸ hchallenge))
      obtain ⟨method, hmethod⟩ : ∃ method : ChallengeMethod,
          request.codeChallengeMethod.getD ChallengeMethod.plain.name = method.name := by
        cases hname : request.codeChallengeMethod with
        | none => exact ⟨.plain, rfl⟩
        | some name =>
          refine ChallengeMethod.exists_name_eq_iff.mpr (or_iff_not_imp_left.mpr fun hs256 => ?_)
          exact not_not.mp fun hplain => h (.unknownMethod hchallenge hname hs256 hplain)
      exact ⟨_, .inr ⟨⟨method, value⟩, rfl, hvalue, hmethod, rfl⟩⟩

/-- Without a challenge every verifier will do, unless the policy asks for challenges. -/
theorem answeredBy_iff_of_none {policy : PkcePolicy} {verifier : Option String}
    (h : request.codeChallenge = none) :
    request.AnsweredBy policy verifier ↔ policy.force = false := by
  refine ⟨?_, .unasked h⟩
  rintro (⟨-, hforce⟩ | ⟨-, hvalue⟩ | ⟨-, -, hvalue⟩)
  · exact hforce
  · exact nomatch h.symm.trans hvalue
  · exact nomatch h.symm.trans hvalue

/-- With a challenge just the verifiers will do that come to its value by its method, if the policy
allows it. -/
theorem answeredBy_iff_of_some {policy : PkcePolicy} {verifier : Option String}
    {challenge : CodeChallenge} (hsome : request.codeChallenge = some challenge.value)
    (hname : request.codeChallengeMethod.getD ChallengeMethod.plain.name =
      challenge.method.name) :
    request.AnsweredBy policy verifier ↔ policy.Allows challenge ∧
      ∃ v, verifier = some v ∧ challenge.method.challengeOf v = challenge.value := by
  obtain ⟨method, value⟩ := challenge
  cases method with
  | s256 =>
    have hmethod := ChallengeMethod.getD_eq_s256_name_iff.mp hname
    constructor
    · rintro (⟨hnone, -⟩ | ⟨-, hvalue⟩ | ⟨hplain, -, -⟩)
      · exact nomatch hnone.symm.trans hsome
      · exact ⟨nofun, _, rfl, Option.some.inj (hvalue.symm.trans hsome)⟩
      · simp [hmethod] at hplain
    · rintro ⟨-, verifier, rfl, hvalue⟩
      exact .s256 hmethod (hsome.trans (congrArg some hvalue.symm))
  | plain =>
    have hmethod := ChallengeMethod.getD_eq_plain_name_iff.mp hname
    constructor
    · rintro (⟨hnone, -⟩ | ⟨hs256, -⟩ | ⟨-, hallowed, hvalue⟩)
      · exact nomatch hnone.symm.trans hsome
      · simp [hs256] at hmethod
      · exact ⟨fun _ => hallowed, _, rfl, Option.some.inj (hvalue.symm.trans hsome)⟩
    · rintro ⟨hallows, verifier, rfl, hvalue⟩
      exact .plain hmethod (hallows rfl) (hsome.trans (congrArg some hvalue.symm))

/-- What is stored is answered for by the same verifiers as the challenge that was asked for. -/
theorem verify_eq_ok_iff (h : request.storedChallenge = .ok stored) {policy : PkcePolicy}
    {verifier : Option String} :
    policy.verify stored verifier = .ok () ↔ request.AnsweredBy policy verifier := by
  rcases storedChallenge_eq_ok_iff.mp h with ⟨hnone, rfl⟩ | ⟨challenge, hsome, -, hname, rfl⟩
  · rw [answeredBy_iff_of_none hnone]
    simp [PkcePolicy.verify]
  · rw [answeredBy_iff_of_some hsome hname, PkcePolicy.verify_stored_eq_ok_iff]

/-- The claims of a code are there just when both the challenge and what it has in common with
other tokens are. -/
theorem claims_eq_ok_iff :
    request.claims config now fresh = .ok code ↔
      request.storedChallenge = .ok code.codeChallenge ∧
        (request.builder config).build now fresh = .ok code.common := by
  obtain ⟨common, codeChallenge⟩ := code
  rw [claims]
  cases request.storedChallenge with
  | error error => simp
  | ok stored =>
    cases (request.builder config).build now fresh with
    | error error => simp
    | ok built => simp [pure, Except.pure, and_comm]

/-- The claims are issued in the second that the clock shows. -/
theorem issuanceSecond_builder (request : MintRequest) (config : Config) (now : Instant) :
    (request.builder config).issuanceSecond now = now.seconds := rfl

/-- The claims expire the whole seconds of the configured lifetime later. -/
theorem expirySecond_builder (request : MintRequest) (config : Config) (now : Instant) :
    (request.builder config).expirySecond now =
      now.seconds + config.lifetimes.authorizationCode.seconds := rfl

/-- With an accepted configuration the lifetime of a code is invalid just when it leads past the
last second. -/
theorem lifetimeInvalid_builder_iff (hconfig : config.validate = .ok ()) :
    (request.builder config).LifetimeInvalid now ↔
      Time.lastSecond < now.seconds + config.lifetimes.authorizationCode.seconds := by
  have hlong := Config.one_second_le hconfig (.head _)
  have hcounted : (request.builder config).expiresAt = none := rfl
  rw [ClaimsBuilder.LifetimeInvalid, expirySecond_builder, issuanceSecond_builder,
    and_iff_right hcounted, Time.Span.seconds]
  omega

/-- The claims of a code are there unless a name is empty, the challenge is refused, or the code
would outlive the last second. -/
theorem exists_claims_iff (hconfig : config.validate = .ok ()) :
    (∃ code, request.claims config now fresh = .ok code) ↔
      ¬request.ChallengeRefused ∧ request.clientId ≠ "" ∧ request.subject ≠ "" ∧
        ¬Time.lastSecond < now.seconds + config.lifetimes.authorizationCode.seconds := by
  have hissuer := (Config.validate_eq_ok_iff_sound.mp hconfig).issuer
  have hbuild : (∃ common, (request.builder config).build now fresh = .ok common) ↔
      (request.clientId ≠ "" ∧ config.issuer ≠ "" ∧ request.subject ≠ "") ∧
        ¬Time.lastSecond < now.seconds + config.lifetimes.authorizationCode.seconds := by
    rw [ClaimsBuilder.exists_build_iff, ClaimsBuilder.emptyField?_eq_none_iff,
      lifetimeInvalid_builder_iff hconfig]
    rfl
  rw [← exists_storedChallenge_iff]
  constructor
  · rintro ⟨code, hclaims⟩
    obtain ⟨hstored, hcommon⟩ := claims_eq_ok_iff.mp hclaims
    obtain ⟨⟨hclient, -, hsubject⟩, hlate⟩ := hbuild.mp ⟨_, hcommon⟩
    exact ⟨⟨_, hstored⟩, hclient, hsubject, hlate⟩
  · rintro ⟨⟨stored, hstored⟩, hclient, hsubject, hlate⟩
    obtain ⟨common, hcommon⟩ := hbuild.mpr ⟨⟨hclient, hissuer, hsubject⟩, hlate⟩
    exact ⟨⟨common, stored⟩, claims_eq_ok_iff.mpr ⟨hstored, hcommon⟩⟩

/-- The claims of a code are those that are asked for. -/
theorem describes_of_claims (h : request.claims config now fresh = .ok code) :
    request.Describes config now code := by
  obtain ⟨hstored, hbuild⟩ := claims_eq_ok_iff.mp h
  obtain ⟨-, expiresAt, hexpiry, -, hcommon⟩ := ClaimsBuilder.build_eq_ok_iff.mp hbuild
  obtain ⟨-, hnanos⟩ := ClaimsBuilder.expiry?_eq_some_iff.mp hexpiry
  have hissuedAt := (request.builder config).issuance_nanos now
  rw [issuanceSecond_builder] at hissuedAt
  rw [expirySecond_builder] at hnanos
  obtain ⟨common, codeChallenge⟩ := code
  subst hcommon
  refine ⟨rfl, rfl, rfl, rfl, rfl, rfl, ?_, hstored⟩
  -- Both ends are whole seconds, so what lies between them is as many of these.
  change expiresAt.nanos - ((request.builder config).issuance now).nanos = _
  rw [hnanos, hissuedAt]
  omega

/-- The claims of a code come back from their sealed form as they are. -/
theorem readable_of_claims (h : request.claims config now fresh = .ok code) :
    code.common.Readable := by
  obtain ⟨-, hbuild⟩ := claims_eq_ok_iff.mp h
  have hbuilt : code.common.Built := ⟨_, _, _, hbuild⟩
  obtain ⟨-, expiresAt, -, -, hcommon⟩ := ClaimsBuilder.build_eq_ok_iff.mp hbuild
  have hdelivery : code.common.delivery = .empty := hcommon ▸ rfl
  exact ⟨hbuilt.wellFormed, by rw [hdelivery]; rfl⟩

end MintRequest

variable {request : MintRequest} {config : Config} {ring : Keyring} {minted : Instant}
  {fresh : TokenId} {nonce : Nonce} {token : String} {code : CodeClaims}

/-- Minting seals the claims of the code. -/
theorem mintCode_eq_ok_iff {codec : Codec} :
    mintCode codec config request minted fresh nonce = .ok token ↔
      ∃ code, request.claims config minted fresh = .ok code ∧
        codec.issue nonce (.code code) = .ok token := by
  have hsteps : mintCode codec config request minted fresh nonce =
      (request.claims config minted fresh).bind fun code =>
        (codec.issue nonce (.code code)).mapError .codec := rfl
  simp only [hsteps, Outcome.bind_eq_ok_iff, Outcome.mapError_eq_ok_iff]

/-- With an accepted configuration minting fails for the named reasons only, and for each. -/
theorem exists_mintCode_error_iff (hconfig : config.validate = .ok ()) (hring : ring.Reachable) :
    (∃ error, mintCode (.ofRing Gcm.aead ring) config request minted fresh nonce = .error error) ↔
      request.Unmintable config minted fresh := by
  have hok : (∃ token, mintCode (.ofRing Gcm.aead ring) config request minted fresh nonce =
      .ok token) ↔ ∃ code, request.claims config minted fresh = .ok code ∧
        fitsCipher (.code code) = true := by
    simp only [mintCode_eq_ok_iff, ← Service.exists_issue_iff_fitsCipher hring nonce]
    rw [exists_comm]
    simp only [exists_and_left]
  rw [Outcome.exists_eq_error_iff, hok]
  constructor
  · intro hnone
    cases hclaims : request.claims config minted fresh with
    | ok code =>
      exact .tooLong hclaims (Bool.eq_false_iff.mpr fun hfits => hnone ⟨code, hclaims, hfits⟩)
    | error error =>
      by_contra hmintable
      obtain ⟨code, hcode⟩ := (MintRequest.exists_claims_iff hconfig).mpr
        ⟨fun h => hmintable (.challenge h), fun h => hmintable (.client h),
          fun h => hmintable (.subject h), fun h => hmintable (.late h)⟩
      exact nomatch hclaims.symm.trans hcode
  · rintro hunmintable ⟨code, hclaims, hfits⟩
    obtain ⟨hchallenge, hclient, hsubject, hlate⟩ :=
      (MintRequest.exists_claims_iff hconfig).mp ⟨code, hclaims⟩
    cases hunmintable with
    | client h => exact hclient h
    | subject h => exact hsubject h
    | challenge h => exact hchallenge h
    | late h => exact hlate h
    | tooLong hother h =>
      obtain rfl := Except.ok.inj (hclaims.symm.trans hother)
      exact nomatch hfits.symm.trans h

namespace MintRequest

/-- The claims of a code that the cipher takes meet what a service asks of codes that it issues. -/
theorem Describes.codeRequirements_met (h : request.Describes config minted code)
    (hfits : fitsCipher (.code code) = true) :
    ∀ requirement ∈ codeRequirements config code, requirement.met := by
  have hlifetime : code.common.expiresAt.nanos - code.common.issuedAt.nanos ≤
      config.lifetimes.authorizationCode.nanos := by
    rw [h.lifetime, Time.Span.seconds]
    omega
  simp only [codeRequirements, List.forall_mem_cons]
  exact ⟨h.issuer, hlifetime, hfits, List.forall_mem_nil _⟩

/-- Before it expires, the code is exchanged in fresh caches for its client with its address just
when the verifier answers the challenge, and then minting has what it asks for. -/
theorem Describes.exchange_iff (h : request.Describes config minted code)
    (hconfig : config.validate = .ok ()) (hring : ring.Reachable)
    (hcarries : (Codec.ofRing Gcm.aead ring).Carries token (.code code)) {clock : Instant}
    {now : Reading} {draw : Draw} {sent verifier : Option String}
    (hclock : clock < code.common.expiresAt) (hnow : now.universal < code.common.expiresAt)
    (hsent : ∀ uri, request.redirectUri = some uri → sent = some uri) :
    (∃ set, ((Service.ofRing config ring).exchange clock now draw
        ⟨token, request.clientId, sent, verifier⟩ {}).2 = .ok set) ↔
      request.AnsweredBy config.pkce verifier ∧
        ∀ requirement ∈ (Service.ofRing config ring).mintRequirements now.universal draw code,
          requirement.met := by
  let redemption : CodeExchange := ⟨token, request.clientId, sent, verifier⟩
  have hparse : (Codec.ofRing Gcm.aead ring).parse clock token .authorizationCode =
      .ok (.code code) := hcarries.parse hclock
  have hpresents : redemption.Presents (.ofRing Gcm.aead ring) clock now.universal code :=
    ⟨Codec.parseCode_eq_ok_iff.mpr hparse, h.clientId, hnow⟩
  have hexchange : ((Service.ofRing config ring).exchange clock now draw redemption {}).2 =
      (Service.ofRing config ring).redeem now.universal draw redemption (.code code) :=
    congrArg Prod.snd (Service.exchange_of_unmarked hpresents rfl)
  have hwellFormed : code.common.WellFormed := (Codec.built_of_parse hparse).wellFormed
  have hredirect : ∀ uri, code.common.redirectUri = some uri → redemption.redirectUri = some uri :=
    fun uri huri => hsent uri (h.redirectUri.symm.trans huri)
  have hdecides : Requirement.Decides _
      ((Service.ofRing config ring).redeem now.universal draw redemption (.code code)) :=
    Service.decides_redeem_of_config hconfig hring rfl hwellFormed hredirect
  -- The service looks at what was stored, the request says what was asked for.
  have hverify : (Service.ofRing config ring).config.pkce.verify code.codeChallenge
      redemption.codeVerifier = .ok () ↔ request.AnsweredBy config.pkce verifier :=
    verify_eq_ok_iff h.challenge
  rw [hexchange, hdecides.ok_iff, List.forall_mem_cons, hverify]

end MintRequest

/-- What is minted by hand obeys the rules of the service that it bypasses. With an accepted
configuration, the token of a request carries a code that is as it was asked for and that lives for
exactly the whole seconds of the configured lifetime. The code meets what the service asks of the
codes that it issues, so that it would have issued this very token. When its client redeems it
before it expires, in fresh caches, with the address that was asked for, and the lifetimes of the
tokens end in time, the service exchanges it just when the verifier answers the challenge as it was
asked for, unless a token is too long for the cipher. Minting fails for the named reasons only, and
for each of them. -/
theorem minted_code_obeys_service {config : Config} (hconfig : config.validate = .ok ())
    {ring : Keyring} (hring : ring.Reachable) (request : MintRequest) (minted : Instant)
    (fresh : TokenId) (nonce : Nonce) :
    (∀ token,
      mintCode (.ofRing Gcm.aead ring) config request minted fresh nonce = .ok token →
        ∃ code, request.claims config minted fresh = .ok code ∧
          (Codec.ofRing Gcm.aead ring).Carries token (.code code) ∧
          request.Describes config minted code ∧
          (∀ value, value ∈ code.common.scope.values ↔ value ∈ Text.words request.scope) ∧
          (∀ requirement ∈ codeRequirements config code, requirement.met) ∧
          (Service.ofRing config ring).issueCode nonce code = .ok token ∧
          ∀ (clock : Instant) (now : Reading) (draw : Draw) (sent verifier : Option String),
            clock < code.common.expiresAt → now.universal < code.common.expiresAt →
            (∀ uri, request.redirectUri = some uri → sent = some uri) →
            (∀ lifetime ∈ (Service.ofRing config ring).mintedLifetimes code,
              now.universal.seconds + lifetime.seconds ≤ Time.lastSecond) →
              ((∃ set, ((Service.ofRing config ring).exchange clock now draw
                  ⟨token, request.clientId, sent, verifier⟩ {}).2 = .ok set) ↔
                request.AnsweredBy config.pkce verifier ∧
                  (Service.ofRing config ring).FitsMinted now.universal draw code)) ∧
    ((∃ error, mintCode (.ofRing Gcm.aead ring) config request minted fresh nonce =
        .error error) ↔ request.Unmintable config minted fresh) := by
  refine ⟨fun token htoken => ?_, exists_mintCode_error_iff hconfig hring⟩
  obtain ⟨code, hclaims, hissue⟩ := mintCode_eq_ok_iff.mp htoken
  have hdescribes := MintRequest.describes_of_claims hclaims
  have hcarries : (Codec.ofRing Gcm.aead ring).Carries token (.code code) :=
    Codec.carries_of_issue (hring.sound.faithful Gcm.aead_seals)
      (MintRequest.readable_of_claims hclaims) hissue
  have hmet := hdescribes.codeRequirements_met
    ((Service.exists_issue_iff_fitsCipher hring nonce).mp ⟨token, hissue⟩)
  refine ⟨code, hclaims, hcarries, hdescribes, fun value => ?_, hmet, ?_, ?_⟩
  · rw [hdescribes.scope, Scope.mem_ofText_iff]
  · obtain ⟨issued, hissued⟩ :=
      (Service.decides_issueCode config hring nonce code).ok_iff.mpr hmet
    have hsame := (Service.issue_of_issueCode hissued).symm.trans hissue
    rw [hissued, Except.ok.inj hsame]
  · intro clock now draw sent verifier hclock hnow hsent hlifetimes
    rw [hdescribes.exchange_iff hconfig hring hcarries hclock hnow hsent,
      Service.mintRequirements_met_iff hlifetimes]

/-- A request with an S256 challenge. -/
def sampleMintRequest : MintRequest where
  clientId := "s6BhdRkqt3"
  subject := "248289761001"
  scope := "openid profile"
  redirectUri := some "https://client.example.org/cb"
  codeChallenge := some "E9Melhoa2OwvFrEMTJguCHaoeK1t8URWbuGJSstw-cM"
  codeChallengeMethod := some "S256"

/-- The claims that the request leads to. -/
def sampleMintedCode : CodeClaims where
  common := {
    id := ⟨"code-1"⟩
    lineage := ⟨"code-1"⟩
    clientId := ⟨"s6BhdRkqt3"⟩
    issuer := "https://issuer.example"
    principal := "248289761001"
    subject := "248289761001"
    acr := none
    issuedAt := sampleClock
    expiresAt := ⟨300000000000, by decide, by decide⟩
    authTime := sampleClock
    redirectUri := some "https://client.example.org/cb"
    audience := []
    scope := Scope.ofText "openid profile"
    nonce := none
    consent := .empty
    delivery := .empty }
  codeChallenge := some "S256E9Melhoa2OwvFrEMTJguCHaoeK1t8URWbuGJSstw-cM"

theorem claims_sample : sampleMintRequest.claims sampleConfig sampleClock
    sampleMintedCode.common.id = .ok sampleMintedCode := by
  rfl

/-- The cipher takes the tokens that redeeming the code mints. -/
theorem fitsMinted_sample : sampleService.FitsMinted sampleClock sampleDraw sampleMintedCode :=
  (Service.mintsWithin_of_fitsCipher (by decide +kernel) (by decide +kernel)).fitsMinted

/-- The verifier behind the challenge of the request. -/
def sampleVerifier : String := "dBjftJeZ4CVP-mB92K27uhbUJU1p1r_wW1gFWFOEjXk"

/-- The code that is minted for the sample request is exchanged with the verifier behind its
challenge, and not without one. A method that there is not is refused. -/
theorem minted_code_obeys_service_sample :
    sampleConfig.validate = .ok () ∧
    (∃ token, mintCode Codec.sampleCodec sampleConfig sampleMintRequest sampleClock
        sampleMintedCode.common.id Codec.sampleNonce = .ok token ∧
      (∃ set, (sampleService.exchange sampleClock sampleClock.reading sampleDraw
        ⟨token, "s6BhdRkqt3", sampleMintRequest.redirectUri, some sampleVerifier⟩ {}).2 =
          .ok set) ∧
      ¬∃ set, (sampleService.exchange sampleClock sampleClock.reading sampleDraw
        ⟨token, "s6BhdRkqt3", sampleMintRequest.redirectUri, none⟩ {}).2 = .ok set) ∧
    ∃ error, mintCode Codec.sampleCodec sampleConfig
      { sampleMintRequest with codeChallengeMethod := some "S512" } sampleClock
      sampleMintedCode.common.id Codec.sampleNonce = .error error := by
  have hconfig : sampleConfig.validate = .ok () := rfl
  have hanswered : sampleMintRequest.AnsweredBy sampleConfig.pkce (some sampleVerifier) :=
    .s256 rfl (by decide +kernel)
  have hunanswered : ¬sampleMintRequest.AnsweredBy sampleConfig.pkce none := by
    rintro ⟨⟨⟩, -⟩
  obtain ⟨token, htoken⟩ : ∃ token, mintCode Codec.sampleCodec sampleConfig sampleMintRequest
      sampleClock sampleMintedCode.common.id Codec.sampleNonce = .ok token := by
    obtain ⟨token, hissue⟩ := exists_issue_of_fitsCipher Codec.sampleNonce
      (by decide +kernel : fitsCipher (.code sampleMintedCode) = true)
    exact ⟨token, mintCode_eq_ok_iff.mpr ⟨_, claims_sample, hissue⟩⟩
  obtain ⟨hminted, -⟩ := minted_code_obeys_service hconfig Codec.sampleRing_reachable
    sampleMintRequest sampleClock sampleMintedCode.common.id Codec.sampleNonce
  obtain ⟨-, hfails⟩ := minted_code_obeys_service hconfig Codec.sampleRing_reachable
    { sampleMintRequest with codeChallengeMethod := some "S512" } sampleClock
    sampleMintedCode.common.id Codec.sampleNonce
  obtain ⟨code, hclaims, -, -, -, -, -, hexchange⟩ := hminted token htoken
  obtain rfl := Except.ok.inj (hclaims.symm.trans claims_sample)
  have hiff (verifier : Option String) := hexchange sampleClock sampleClock.reading sampleDraw
    sampleMintRequest.redirectUri verifier (by decide) (by decide) (fun _ huri => huri)
    (by decide)
  refine ⟨hconfig, ⟨token, htoken, ?_, ?_⟩, ?_⟩
  · exact (hiff _).mpr ⟨hanswered, fitsMinted_sample⟩
  · exact fun hset => hunanswered ((hiff _).mp hset).1
  · exact hfails.mpr (.challenge (.unknownMethod rfl rfl (by decide) (by decide)))

end Cli

end OpaqueTokens
