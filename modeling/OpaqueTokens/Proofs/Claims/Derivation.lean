import OpaqueTokens.Claims.Derivation
import OpaqueTokens.Proofs.Claims.Lifetimes

/-!
# When claims can be derived

The claims of a minted token follow from those of the grant, so the only thing that can be wrong
with them is their lifetime. It must last a second at least, and must not lead past the last
instant when it is counted from the whole second of issuance. Derived claims stay in the lineage of
the grant and expire a lifetime from now at the latest.
-/

namespace OpaqueTokens

open Time (Instant Reading Span)

/-- A lifetime that a token can be minted with: a second at least, and not past the last
instant. -/
def Time.Span.MintableAt (lifetime : Span) (now : Instant) : Prop :=
  1000000000 ≤ lifetime.nanos ∧ now.floor.nanos + lifetime.nanos ≤ Time.lastNanos

instance (lifetime : Span) (now : Instant) : Decidable (lifetime.MintableAt now) :=
  inferInstanceAs (Decidable (_ ∧ _))

namespace Claims

open ClaimsBuilder

/-- The builder of derived claims. -/
def derivation (claims : Claims) (lifetime : Span) (now : Instant) : ClaimsBuilder :=
  { claims.successor with
    issuedAt := some { instant := now }
    lifetime := some lifetime }

/-- Every grant has the fields that must not be empty. -/
theorem emptyField?_derivation {claims : Claims} (h : claims.WellFormed) (lifetime : Span)
    (now : Instant) : (claims.derivation lifetime now).emptyField? = none :=
  emptyField?_eq_none_iff.mpr ⟨h.clientId_ne_empty, h.issuer_ne_empty, h.subject_ne_empty⟩

/-- The lifetime of derived claims is invalid just when it cannot be minted. -/
theorem lifetimeInvalid_derivation_iff {claims : Claims} {lifetime : Span} {now : Instant} :
    (claims.derivation lifetime now).LifetimeInvalid now ↔ ¬lifetime.MintableAt now := by
  have hissuance : (claims.derivation lifetime now).issuanceSecond now = now.seconds := rfl
  have hexpiry : (claims.derivation lifetime now).expirySecond now =
      now.seconds + lifetime.seconds := rfl
  have hcounted : (claims.derivation lifetime now).expiresAt = none := rfl
  rw [LifetimeInvalid, hissuance, hexpiry, Time.Span.MintableAt, Instant.floor_nanos]
  simp only [hcounted, true_and, Span.seconds, Time.lastSecond, Time.lastNanos]
  omega

/-- A lifetime that can be minted leads to claims. -/
theorem exists_derive {claims : Claims} (h : claims.WellFormed) {lifetime : Span} {now : Instant}
    (hlifetime : lifetime.MintableAt now) (fresh : TokenId) :
    ∃ derived, claims.derive lifetime now fresh = .ok derived := by
  have hvalid : ¬(claims.derivation lifetime now).LifetimeInvalid now :=
    fun hinvalid => lifetimeInvalid_derivation_iff.mp hinvalid hlifetime
  obtain ⟨expiresAt, -, hbuild⟩ :=
    exists_build (emptyField?_derivation h lifetime now) hvalid fresh
  exact ⟨_, hbuild⟩

/-- Of a grant nothing is derived for a lifetime that cannot be minted, and that is the error. -/
theorem derive_eq_error {claims : Claims} (h : claims.WellFormed) {lifetime : Span}
    {now : Instant} (hlifetime : ¬lifetime.MintableAt now) (fresh : TokenId) :
    claims.derive lifetime now fresh = .error .invalidLifetime :=
  build_eq_invalidLifetime_iff.mpr
    ⟨emptyField?_derivation h lifetime now, lifetimeInvalid_derivation_iff.mpr hlifetime⟩

/-- Claims are derived for no other lifetime. -/
theorem mintable_of_derive {claims derived : Claims} {lifetime : Span} {now : Instant}
    {fresh : TokenId} (h : claims.derive lifetime now fresh = .ok derived) :
    lifetime.MintableAt now := by
  have hempty := (build_eq_ok_iff.mp h).1
  apply Decidable.byContradiction
  intro hlifetime
  have hrefused : claims.derive lifetime now fresh = .error .invalidLifetime :=
    build_eq_invalidLifetime_iff.mpr ⟨hempty, lifetimeInvalid_derivation_iff.mpr hlifetime⟩
  rw [h] at hrefused
  cases hrefused

/-- What is derived from claims: their successor, which expires at the last whole second of the
lifetime. -/
theorem spec_of_derive {claims derived : Claims} {lifetime : Span} {now : Instant}
    {fresh : TokenId} (h : claims.derive lifetime now fresh = .ok derived) :
    ∃ expiry : Instant, now.floor.nanos + lifetime.nanos = expiry.nanos ∧
      now.floor < expiry.floor ∧
      (claims.derivation lifetime now).claimsUntil now fresh expiry.floor = derived := by
  obtain ⟨-, expiresAt, hexpiry, hlt, hderived⟩ := build_eq_ok_iff.mp h
  simp only [expiry?, Claims.successor, issuance, Option.map_some, Option.getD_some,
    Reading.universal, Option.map_eq_some_iff] at hexpiry hlt
  obtain ⟨expiry, hadd, rfl⟩ := hexpiry
  exact ⟨expiry, Instant.add?_eq_some_iff.mp hadd, hlt, hderived⟩

/-- Derived claims are of the same lineage. -/
theorem lineage_of_derive {claims derived : Claims} {lifetime : Span} {now : Instant}
    {fresh : TokenId} (h : claims.derive lifetime now fresh = .ok derived) :
    derived.lineage = claims.lineage := by
  obtain ⟨expiry, -, -, rfl⟩ := spec_of_derive h
  rfl

/-- Derived claims have the fresh identifier. -/
theorem id_of_derive {claims derived : Claims} {lifetime : Span} {now : Instant}
    {fresh : TokenId} (h : claims.derive lifetime now fresh = .ok derived) :
    derived.id = fresh := by
  obtain ⟨expiry, -, -, rfl⟩ := spec_of_derive h
  rfl

/-- Derived claims expire no later than a lifetime from now. -/
theorem expiresAt_of_derive {claims derived : Claims} {lifetime : Span} {now : Instant}
    {fresh : TokenId} (h : claims.derive lifetime now fresh = .ok derived) :
    derived.expiresAt.nanos ≤ now.nanos + lifetime.nanos := by
  obtain ⟨expiry, hnanos, -, rfl⟩ := spec_of_derive h
  have hnow := Instant.le_def.mp now.floor_le
  have hexpiry : expiry.floor.nanos ≤ expiry.nanos := expiry.floor_le
  calc ((claims.derivation lifetime now).claimsUntil now fresh expiry.floor).expiresAt.nanos
      = expiry.floor.nanos := rfl
    _ ≤ now.floor.nanos + lifetime.nanos := hnanos ▸ hexpiry
    _ ≤ now.nanos + lifetime.nanos := by omega

/-- Derived claims are valid for the whole seconds of the lifetime, counted from the second in which
they are issued. -/
theorem seconds_of_derive {claims derived : Claims} {lifetime : Span} {now : Instant}
    {fresh : TokenId} (h : claims.derive lifetime now fresh = .ok derived) :
    derived.expiresAt.seconds = now.seconds + lifetime.seconds ∧
      derived.expiresIn derived.issuedAt = lifetime.seconds := by
  obtain ⟨expiry, hnanos, -, rfl⟩ := spec_of_derive h
  have hseconds : expiry.seconds = now.seconds + lifetime.seconds := by
    rw [Instant.floor_nanos] at hnanos
    simp only [Instant.seconds, Span.seconds] at hnanos ⊢
    omega
  have hissuedAt : ((claims.derivation lifetime now).claimsUntil now fresh
      expiry.floor).issuedAt = now.floor := rfl
  have hexpiresAt : ((claims.derivation lifetime now).claimsUntil now fresh
      expiry.floor).expiresAt = expiry.floor := rfl
  rw [expiresIn, hissuedAt, hexpiresAt]
  refine ⟨by rw [Instant.seconds_floor, hseconds], ?_⟩
  simp only [Instant.secondsUntil, Instant.floor_nanos, hseconds]
  omega

/-- What is derived for a longer lifetime does not expire before what is derived for a shorter one at
the same time, also when it is counted in whole seconds. -/
theorem expiresAt_le_of_derive {claims shorter longer : Claims} {lifetime other : Span}
    {now : Instant} {fresh fresh' : TokenId} (hle : lifetime ≤ other)
    (hshorter : claims.derive lifetime now fresh = .ok shorter)
    (hlonger : claims.derive other now fresh' = .ok longer) :
    shorter.expiresAt ≤ longer.expiresAt.floor := by
  obtain ⟨expiry, hexpiry, -, rfl⟩ := spec_of_derive hshorter
  obtain ⟨expiry', hexpiry', -, rfl⟩ := spec_of_derive hlonger
  have hspan : lifetime.nanos ≤ other.nanos := hle
  change expiry.floor ≤ expiry'.floor.floor
  rw [Instant.floor_floor, Instant.le_def, Instant.floor_nanos, Instant.floor_nanos]
  simp only [Instant.seconds]
  omega

end Claims

end OpaqueTokens
