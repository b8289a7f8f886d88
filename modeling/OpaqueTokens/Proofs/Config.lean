import OpaqueTokens.Config.Basic
import OpaqueTokens.Proofs.Claims.Derivation
import OpaqueTokens.Proofs.Seal.Sealer

/-!
# What an accepted configuration promises

In an accepted configuration every kind of token lives at least a second, and refresh tokens live no
shorter than access tokens. So tokens can be minted at every time that is not too close to the last
instant.
-/

namespace OpaqueTokens.Config

open Time (Instant Span)

variable {config : Config}

/-- An accepted configuration has no value that cannot be worked with. -/
theorem validate_eq_ok_iff : config.validate = .ok () ↔ config.invalid? = none := by
  rw [validate]
  cases config.invalid? <;> simp

/-- Nothing is found wrong where a check does not apply and nothing else is wrong. -/
theorem ite_some_eq_none_iff {problem : InvalidValue} {rest : Option InvalidValue} {c : Prop}
    [Decidable c] : (if c then some problem else rest) = none ↔ ¬c ∧ rest = none := by
  by_cases hc : c <;> simp [hc]

/-- A configuration that can be worked with: it names an issuer, every kind of token lives at least
a second, refresh tokens live no shorter than access tokens, and a ring can be made with the key
identifier. -/
structure Sound (config : Config) : Prop where
  issuer : config.issuer ≠ ""
  one_second_le : ∀ lifetime ∈ config.namedLifetimes, 1000000000 ≤ lifetime.2.nanos
  access_le_refresh : config.lifetimes.accessToken ≤ config.lifetimes.refreshToken
  keyId : Keyring.checkId config.sealer.keyId = .ok ()

/-- The configurations that are accepted are exactly those that can be worked with. -/
theorem validate_eq_ok_iff_sound : config.validate = .ok () ↔ config.Sound := by
  have hlong : (∀ lifetime ∈ config.namedLifetimes, 1000000000 ≤ lifetime.2.nanos) ↔
      (config.namedLifetimes.find? fun lifetime => lifetime.2.seconds == 0) = none := by
    rw [List.find?_eq_none]
    refine forall₂_congr fun lifetime _ => ?_
    simp only [Span.seconds, beq_iff_eq]
    omega
  have hspan : config.lifetimes.accessToken ≤ config.lifetimes.refreshToken ↔
      ¬config.lifetimes.refreshToken < config.lifetimes.accessToken := Nat.not_lt.symm
  have hkeyId : Keyring.checkId config.sealer.keyId = .ok () ↔ ¬config.sealer.keyId = "" ∧
      ¬maxKeyIdLength < (Text.utf8 config.sealer.keyId).length := by
    rw [Keyring.checkId_eq_ok_iff, Nat.not_lt]
  rw [validate_eq_ok_iff, invalid?, ite_some_eq_none_iff]
  constructor
  · rintro ⟨hissuer, h⟩
    split at h
    · cases h
    · rename_i hfind
      simp only [ite_some_eq_none_iff, and_true] at h
      exact ⟨hissuer, hlong.mpr hfind, hspan.mpr h.1, hkeyId.mpr h.2⟩
  · rintro ⟨hissuer, hlifetimes, haccess, hid⟩
    refine ⟨hissuer, ?_⟩
    rw [hlong.mp hlifetimes]
    simp only [ite_some_eq_none_iff, and_true]
    exact ⟨hspan.mp haccess, hkeyId.mp hid⟩

/-- In an accepted configuration refresh tokens live no shorter than access tokens. -/
theorem accessToken_le_refreshToken (h : config.validate = .ok ()) :
    config.lifetimes.accessToken ≤ config.lifetimes.refreshToken :=
  (validate_eq_ok_iff_sound.mp h).access_le_refresh

/-- In an accepted configuration every kind of token lives at least a second. -/
theorem one_second_le (h : config.validate = .ok ()) {name : String} {lifetime : Span}
    (hlifetime : (name, lifetime) ∈ config.namedLifetimes) : 1000000000 ≤ lifetime.nanos :=
  (validate_eq_ok_iff_sound.mp h).one_second_le _ hlifetime

/-- In an accepted configuration tokens can be minted at every time from which their lifetime does
not lead past the last instant. -/
theorem mintableAt (h : config.validate = .ok ()) {name : String} {lifetime : Span}
    (hlifetime : (name, lifetime) ∈ config.namedLifetimes) {now : Instant}
    (hlast : now.nanos + lifetime.nanos ≤ Time.lastNanos) : lifetime.MintableAt now := by
  have hfloor := Instant.le_def.mp now.floor_le
  exact ⟨one_second_le h hlifetime, by omega⟩

end OpaqueTokens.Config
