import OpaqueTokens.Proofs.Grant.Acceptance
import OpaqueTokens.Proofs.Time.Arithmetic

/-!
# How long codes may live

A code is issued if it names the configured issuer and if no more time lies between its issuance and
its expiry than is configured. What is computed is the last instant that the expiry may have, and
this is the last instant of all where the sum is out of range. The limit is exact all the same: then
every expiry is within the configured lifetime.
-/

namespace OpaqueTokens

open Crypto (Gcm.aead Gcm.aead_seals Gcm.encrypt_eq_none_iff Gcm.maxTextLength)
open Requirement (Decides FirstUnmet decides_nil decides_cons_unmet)
open Time (Instant Span)

/-- What claims are answered with whose sealed form the cipher does not take. -/
def sealingRefusal : GrantError :=
  .internal "failed to seal token: Encryption failed: AES-GCM encryption failed: aead::Error"

/-- What the claims of a code must meet, in the order in which it is looked at: the issuer, the
lifetime and the size. -/
def codeRequirements (config : Config) (code : CodeClaims) : List Requirement :=
  [⟨code.common.issuer = config.issuer, .internal "authorization code issuer mismatch"⟩,
   ⟨code.common.expiresAt.nanos - code.common.issuedAt.nanos ≤
      config.lifetimes.authorizationCode.nanos, .internal "code lifetime exceeds configuration"⟩,
   ⟨fitsCipher (.code code) = true, sealingRefusal⟩]

namespace Service

variable {ring : Keyring}

/-- Claims are sealed just when the cipher takes them. -/
theorem decides_sealClaims (config : Config) (hring : ring.Reachable) (nonce : Nonce)
    (claims : TokenClaims) : Decides [⟨fitsCipher claims = true, sealingRefusal⟩]
      ((ofRing config ring).sealClaims nonce claims) := by
  by_cases hfits : fitsCipher claims = true
  · obtain ⟨token, hissue⟩ := Codec.exists_issue Gcm.aead_seals hring.sound nonce claims
      (of_decide_eq_true hfits)
    have hsealed : (ofRing config ring).sealClaims nonce claims = .ok token :=
      Outcome.mapError_eq_ok_iff.mpr hissue
    rw [hsealed]
    exact (decides_nil token).cons_met hfits
  · have hlong : ¬(Envelope.content claims.common.expiresAt.seconds
        (Wire.encode claims)).length ≤ Gcm.maxTextLength :=
      of_decide_eq_false (Bool.eq_false_iff.mpr hfits)
    have hrefused : ring.sealPayload Gcm.aead (Wire.encode claims)
        claims.common.expiresAt.seconds nonce =
          .error (.encryption "AES-GCM encryption failed: aead::Error") :=
      Keyring.sealPayload_of_encrypt_eq_none hring.sound fun key =>
        Gcm.encrypt_eq_none_iff.mpr (Nat.not_le.mp hlong)
    have hsealed : (ofRing config ring).sealClaims nonce claims = .error sealingRefusal := by
      have hissue : (Codec.ofRing Gcm.aead ring).issue nonce claims = _ :=
        congrArg (Except.mapError CodecError.sealing) hrefused
      exact congrArg (Except.mapError _) hissue
    rw [hsealed]
    exact decides_cons_unmet hfits

/-- The sealer of a ring takes exactly what the cipher takes. -/
theorem exists_issue_iff_fitsCipher (hring : ring.Reachable) (nonce : Nonce)
    {claims : TokenClaims} :
    (∃ token, (Codec.ofRing Gcm.aead ring).issue nonce claims = .ok token) ↔
      fitsCipher claims = true := by
  have hok := (decides_sealClaims {} hring nonce claims).ok_iff
  simp only [sealClaims, Outcome.mapError_eq_ok_iff, List.forall_mem_singleton] at hok
  exact hok

/-- What a code must meet decides whether it is issued, and with which error it is refused. -/
theorem decides_issueCode (config : Config) (hring : ring.Reachable) (nonce : Nonce)
    (code : CodeClaims) :
    Decides (codeRequirements config code) ((ofRing config ring).issueCode nonce code) := by
  refine Decides.guard not_not.symm fun _ => Decides.guard ?_ fun _ =>
    decides_sealClaims config hring nonce (.code code)
  -- The limit saturates, but an expiry is later than it only if it is later than the exact sum.
  have hlimit : code.common.issuedAt.after config.lifetimes.authorizationCode <
      code.common.expiresAt ↔ _ := Instant.after_lt_iff
  change _ ↔ ¬code.common.issuedAt.after config.lifetimes.authorizationCode <
      code.common.expiresAt
  rw [hlimit]
  omega

/-- What a code must meet decides whether it is issued, and every error is one of the service. Where
the cipher takes the code, it is issued just when it names the configured issuer and no more time
lies between its issuance and its expiry than is configured. The limit is the issuance and the
lifetime added in steps, or the last instant where a step has no result; then every expiry is within
the lifetime. -/
theorem code_lifetime_exact (config : Config) {ring : Keyring} (hring : ring.Reachable)
    (nonce : Nonce) (code : CodeClaims) :
    Decides (codeRequirements config code) ((ofRing config ring).issueCode nonce code) ∧
    (fitsCipher (.code code) = true →
      ((∃ token, (ofRing config ring).issueCode nonce code = .ok token) ↔
        code.common.issuer = config.issuer ∧
          code.common.expiresAt.nanos - code.common.issuedAt.nanos ≤
            config.lifetimes.authorizationCode.nanos)) ∧
    (∀ error, (ofRing config ring).issueCode nonce code = .error error →
      ∃ detail, error = .internal detail) ∧
    code.common.issuedAt.after config.lifetimes.authorizationCode =
      (code.common.issuedAt.addSigned? config.lifetimes.authorizationCode).getD Instant.last ∧
    (config.lifetimes.authorizationCode.signed? = none ∨ Time.lastNanos <
        code.common.issuedAt.nanos + config.lifetimes.authorizationCode.nanos →
      code.common.issuedAt.after config.lifetimes.authorizationCode = Instant.last ∧
        code.common.expiresAt.nanos - code.common.issuedAt.nanos ≤
          config.lifetimes.authorizationCode.nanos) := by
  have hdecides := decides_issueCode config hring nonce code
  refine ⟨hdecides, fun hfits => ?_, fun error herror => ?_, ?_, Instant.after_of_signed?_or_lt⟩
  · rw [hdecides.ok_iff]
    simp [codeRequirements, hfits]
  · obtain ⟨requirement, hmem, rfl⟩ := ((hdecides.error_iff error).mp herror).exists_mem
    simp only [codeRequirements, List.mem_cons, List.not_mem_nil, or_false] at hmem
    rcases hmem with rfl | rfl | rfl
    · exact ⟨_, rfl⟩
    · exact ⟨_, rfl⟩
    · exact ⟨_, rfl⟩
  · rw [Instant.after, Instant.addSigned?_eq_add?]

/-- The sample configuration with another lifetime for codes. -/
def sampleConfigFor (lifetime : Span) : Config :=
  { sampleConfig with lifetimes := { sampleConfig.lifetimes with authorizationCode := lifetime } }

/-- The sample code, valid from the first instant until the last second. -/
def longestCode : CodeClaims :=
  { Codec.sampleCode with common := { Codec.sampleCode.common with
      issuedAt := ⟨-377705116800000000000, by decide, by decide⟩
      expiresAt := Instant.last.floor } }

/-- The sample code lives for a minute: a minute is enough for it, and a nanosecond less is not. A
code that lives for all of time is issued where the lifetime is too long to be converted. -/
theorem code_lifetime_exact_sample :
    (∃ token, (ofRing (sampleConfigFor ⟨60000000000, by decide⟩) Codec.sampleRing).issueCode
      Codec.sampleNonce Codec.sampleCode = .ok token) ∧
    (ofRing (sampleConfigFor ⟨59999999999, by decide⟩) Codec.sampleRing).issueCode
      Codec.sampleNonce Codec.sampleCode =
        .error (.internal "code lifetime exceeds configuration") ∧
    Span.longest.signed? = none ∧
    ∃ token, (ofRing (sampleConfigFor .longest) Codec.sampleRing).issueCode
      Codec.sampleNonce longestCode = .ok token := by
  refine ⟨?_, ?_, by decide, ?_⟩
  · obtain ⟨-, hiff, -⟩ := code_lifetime_exact (sampleConfigFor ⟨60000000000, by decide⟩)
      Codec.sampleRing_reachable Codec.sampleNonce Codec.sampleCode
    exact (hiff (decide_eq_true Codec.sampleCode_fits)).mpr (by decide)
  · obtain ⟨hdecides, -⟩ := code_lifetime_exact (sampleConfigFor ⟨59999999999, by decide⟩)
      Codec.sampleRing_reachable Codec.sampleNonce Codec.sampleCode
    exact (hdecides.error_iff _).mpr
      (.later (rfl : Codec.sampleCode.common.issuer = sampleConfig.issuer) (.here (by decide)))
  · obtain ⟨-, hiff, -, -, hsaturated⟩ := code_lifetime_exact (sampleConfigFor .longest)
      Codec.sampleRing_reachable Codec.sampleNonce longestCode
    have hlong : (sampleConfigFor .longest).lifetimes.authorizationCode.signed? = none := by decide
    exact (hiff (by decide +kernel)).mpr ⟨rfl, (hsaturated (.inl hlong)).2⟩

end Service

end OpaqueTokens
