import OpaqueTokens.Proofs.Claims.Building
import OpaqueTokens.Proofs.Time.Arithmetic

/-!
# How long built claims are valid

What a builder makes of its instants and its lifetime is said here in whole seconds and exact
arithmetic: the claims are issued in the second at or below the given instant, and they expire in
the second at or below the one that is named, or else so many whole seconds after the issuance as
the lifetime has. Building fails for the first field that is empty, and then only if the expiry is
not later than the issuance or, where it is counted, later than the last second. The computation
takes steps any of which could leave the range of instants; none of those that are not checked does.
-/

namespace OpaqueTokens

open Time (Instant Reading Span)

/-- The last second of the year 9999. -/
def Time.lastSecond : Int := 253402300799

/-- The whole second of an instant is the last one that is not later. -/
theorem Time.Instant.floor_spec (i : Instant) :
    i.floor.nanos ≤ i.nanos ∧ i.nanos < i.floor.nanos + 1000000000 ∧
      i.floor.nanos = i.seconds * 1000000000 := by
  rw [floor_nanos, seconds]
  omega

namespace ClaimsBuilder

variable {builder : ClaimsBuilder} {now : Instant} {fresh : TokenId} {name : String}

/-- The fields that must not be empty with their names, in the order in which they are looked at. -/
def requiredFields (builder : ClaimsBuilder) : List (String × String) :=
  [("client_id", builder.clientId.text), ("issuer", builder.issuer), ("subject", builder.subject)]

/-- A field is the first one that is empty. -/
def FirstEmpty (builder : ClaimsBuilder) (name : String) : Prop :=
  ∃ before after, builder.requiredFields = before ++ (name, "") :: after ∧
    ∀ field ∈ before, field.2 ≠ ""

/-- The empty field that is reported is the first one. -/
theorem emptyField?_eq_some_iff : builder.emptyField? = some name ↔ builder.FirstEmpty name := by
  have hfind : builder.emptyField? =
      (builder.requiredFields.find? fun field => field.2 = "").map (·.1) := by
    simp only [emptyField?, requiredFields, List.find?_cons, List.find?_nil]
    by_cases hclient : builder.clientId.text = ""
    · simp [hclient]
    · by_cases hissuer : builder.issuer = ""
      · simp [hclient, hissuer]
      · by_cases hsubject : builder.subject = "" <;> simp [hclient, hissuer, hsubject]
  rw [hfind, Option.map_eq_some_iff]
  constructor
  · rintro ⟨⟨_, value⟩, hfound, rfl⟩
    obtain ⟨hempty, before, after, hfields, hbefore⟩ := List.find?_eq_some_iff_append.mp hfound
    obtain rfl : value = "" := of_decide_eq_true hempty
    exact ⟨before, after, hfields, by simpa using hbefore⟩
  · rintro ⟨before, after, hfields, hbefore⟩
    have hfound : builder.requiredFields.find? (fun field => field.2 = "") = some (name, "") :=
      List.find?_eq_some_iff_append.mpr
        ⟨decide_eq_true rfl, before, after, hfields, by simpa using hbefore⟩
    exact ⟨(name, ""), hfound, rfl⟩

/-- The second in which claims are issued: the one at or below the instant that is named, or now. -/
def issuanceSecond (builder : ClaimsBuilder) (now : Instant) : Int :=
  ((builder.issuedAt.map Reading.universal).getD now).seconds

/-- The second in which claims expire: the one at or below the instant that is named, or else so
many seconds after the issuance as the lifetime has. -/
def expirySecond (builder : ClaimsBuilder) (now : Instant) : Int :=
  match builder.expiresAt with
  | some reading => reading.universal.seconds
  | none => builder.issuanceSecond now + (builder.lifetime.getD .fiveMinutes).seconds

/-- The second of the authentication: the one at or below the instant that is named, or that of the
issuance. -/
def authSecond (builder : ClaimsBuilder) (now : Instant) : Int :=
  (builder.authTime.map fun reading => reading.universal.seconds).getD (builder.issuanceSecond now)

/-- Claims would not be valid for a second, or would be valid beyond the last second for having a
lifetime that is too long. -/
def LifetimeInvalid (builder : ClaimsBuilder) (now : Instant) : Prop :=
  builder.expirySecond now ≤ builder.issuanceSecond now ∨
    (builder.expiresAt = none ∧ Time.lastSecond < builder.expirySecond now)

instance (builder : ClaimsBuilder) (now : Instant) : Decidable (builder.LifetimeInvalid now) :=
  inferInstanceAs (Decidable (_ ∨ _))

/-- The issuance is the second in which claims are issued. -/
theorem issuance_nanos (builder : ClaimsBuilder) (now : Instant) :
    (builder.issuance now).nanos = builder.issuanceSecond now * 1000000000 :=
  rfl

/-- There is an expiry unless it is counted and later than the last second, and it is the second in
which claims expire. -/
theorem expiry?_eq_some_iff {expiresAt : Instant} :
    builder.expiry? now = some expiresAt ↔
      (builder.expiresAt = none → builder.expirySecond now ≤ Time.lastSecond) ∧
        expiresAt.nanos = builder.expirySecond now * 1000000000 := by
  cases hexpiresAt : builder.expiresAt with
  | some reading =>
    have hsecond : builder.expirySecond now = reading.universal.seconds := by
      simp only [expirySecond, hexpiresAt]
    simp only [expiry?, hexpiresAt, hsecond, Option.some.injEq, reduceCtorEq, false_imp_iff,
      true_and, Instant.ext_iff, Instant.floor_nanos]
    exact eq_comm
  | none =>
    have hsecond : builder.expirySecond now =
        builder.issuanceSecond now + (builder.lifetime.getD defaultLifetime).seconds := by
      simp only [expirySecond, hexpiresAt]
      rfl
    generalize hspan : builder.lifetime.getD defaultLifetime = span at hsecond
    have hissuance := issuance_nanos builder now
    simp only [expiry?, hexpiresAt, hspan, hsecond, Option.map_eq_some_iff, true_imp_iff,
      Instant.add?_eq_some_iff, hissuance, Span.seconds, Time.lastSecond]
    constructor
    · rintro ⟨expiry, hnanos, rfl⟩
      have hlast := expiry.le_last
      rw [Instant.floor_nanos, Instant.seconds]
      simp only [Time.lastNanos] at hlast
      omega
    · rintro ⟨hle, hnanos⟩
      -- The exact sum is an instant, as its second is not later than the last one.
      have hfirst := (builder.issuance now).first_le
      rw [hissuance] at hfirst
      refine ⟨⟨builder.issuanceSecond now * 1000000000 + span.nanos, by omega, ?_⟩, rfl, ?_⟩
      · simp only [Time.lastNanos]
        omega
      · ext
        simp only [Instant.floor_nanos, Instant.seconds, hnanos]
        omega

/-- The authentication of the claims is at the start of its second. -/
theorem authTime_claimsUntil (builder : ClaimsBuilder) (now : Instant) (fresh : TokenId)
    (expiresAt : Instant) : (builder.claimsUntil now fresh expiresAt).authTime.nanos =
      builder.authSecond now * 1000000000 := by
  rw [claimsUntil, authSecond]
  cases builder.authTime with
  | none => exact issuance_nanos builder now
  | some reading => rfl

/-- Claims expire later than they are issued just when their second does. -/
theorem issuance_lt_iff {expiresAt : Instant}
    (h : expiresAt.nanos = builder.expirySecond now * 1000000000) :
    builder.issuance now < expiresAt ↔
      ¬builder.expirySecond now ≤ builder.issuanceSecond now := by
  rw [Instant.lt_def, issuance_nanos, h]
  omega

/-- Claims with a valid lifetime and no empty field are built, and expire in their second. -/
theorem exists_build (hempty : builder.emptyField? = none)
    (hlifetime : ¬builder.LifetimeInvalid now) (fresh : TokenId) : ∃ expiresAt : Instant,
      expiresAt.nanos = builder.expirySecond now * 1000000000 ∧
        builder.build now fresh = .ok (builder.claimsUntil now fresh expiresAt) := by
  rw [LifetimeInvalid, not_or, not_and, Int.not_lt] at hlifetime
  obtain ⟨hlater, hlast⟩ := hlifetime
  have hbounds : Time.firstNanos ≤ builder.expirySecond now * 1000000000 ∧
      builder.expirySecond now * 1000000000 ≤ Time.lastNanos := by
    have hfirst := (builder.issuance now).first_le
    rw [issuance_nanos] at hfirst
    refine ⟨by omega, ?_⟩
    cases hexpiresAt : builder.expiresAt with
    | none =>
      have hle := hlast hexpiresAt
      simp only [Time.lastSecond, Time.lastNanos] at *
      omega
    | some reading =>
      have hle := reading.universal.floor.le_last
      rw [Instant.floor_nanos] at hle
      simpa only [expirySecond, hexpiresAt] using hle
  let expiresAt : Instant := ⟨builder.expirySecond now * 1000000000, hbounds.1, hbounds.2⟩
  have hexpiry : builder.expiry? now = some expiresAt := expiry?_eq_some_iff.mpr ⟨hlast, rfl⟩
  exact ⟨expiresAt, rfl, build_eq_ok_iff.mpr
    ⟨hempty, expiresAt, hexpiry, (issuance_lt_iff rfl).mpr hlater, rfl⟩⟩

/-- Where no field is empty, building fails just when the lifetime is invalid. -/
theorem build_eq_invalidLifetime_iff :
    builder.build now fresh = .error .invalidLifetime ↔
      builder.emptyField? = none ∧ builder.LifetimeInvalid now := by
  constructor
  · intro h
    have hempty : builder.emptyField? = none := by
      cases hempty : builder.emptyField? with
      | none => rfl
      | some name => simp [build, hempty] at h
    refine ⟨hempty, Decidable.byContradiction fun hlifetime => ?_⟩
    obtain ⟨expiresAt, -, hbuild⟩ := exists_build hempty hlifetime fresh
    rw [hbuild] at h
    cases h
  · rintro ⟨hempty, hlifetime⟩
    cases hbuild : builder.build now fresh with
    | error error => rw [build_eq_error hempty hbuild]
    | ok claims =>
      obtain ⟨-, expiresAt, hexpiry, hlt, -⟩ := build_eq_ok_iff.mp hbuild
      obtain ⟨hlast, hnanos⟩ := expiry?_eq_some_iff.mp hexpiry
      rcases hlifetime with hshort | ⟨hcounted, hpast⟩
      · exact absurd hshort ((issuance_lt_iff hnanos).mp hlt)
      · exact absurd hpast (Int.not_lt.mpr (hlast hcounted))

/-- Claims are built just when no field is empty and the lifetime is valid. -/
theorem exists_build_iff : (∃ claims, builder.build now fresh = .ok claims) ↔
    builder.emptyField? = none ∧ ¬builder.LifetimeInvalid now := by
  constructor
  · rintro ⟨claims, hbuild⟩
    have hempty := (build_eq_ok_iff.mp hbuild).1
    refine ⟨hempty, fun hlifetime => ?_⟩
    rw [build_eq_invalidLifetime_iff.mpr ⟨hempty, hlifetime⟩] at hbuild
    cases hbuild
  · rintro ⟨hempty, hlifetime⟩
    obtain ⟨expiresAt, -, hbuild⟩ := exists_build hempty hlifetime fresh
    exact ⟨_, hbuild⟩

/-- Building fails for a field just when it is the first one that is empty. -/
theorem build_eq_missingField_iff :
    builder.build now fresh = .error (.missingField name) ↔ builder.FirstEmpty name := by
  rw [← emptyField?_eq_some_iff]
  cases hempty : builder.emptyField? with
  | some other => simp [build, hempty]
  | none =>
    simp only [reduceCtorEq, iff_false]
    intro hbuild
    cases build_eq_error hempty hbuild

/-- The expiry by steps that have no result out of range. The outer result is missing where a step
is without one that is not checked, the inner one where a step is that is. -/
def expirySteps (builder : ClaimsBuilder) (issuedAt : Instant) : Option (Option Instant) :=
  match builder.expiresAt with
  | some reading => reading.wholeSecond?.map some
  | none =>
    match issuedAt.addSigned? (builder.lifetime.getD defaultLifetime) with
    | none => some none
    | some expiry => expiry.reading.wholeSecond?.map some

/-- Building by steps that have no result out of range. There is no outcome at all where a step is
without a result that is not checked. -/
def buildSteps (builder : ClaimsBuilder) (now : Instant) (fresh : TokenId) :
    Option (Except ClaimsError Claims) :=
  match builder.emptyField? with
  | some name => some (.error (.missingField name))
  | none => do
    let issuedAt ← (builder.issuedAt.getD now.reading).wholeSecond?
    match ← builder.expirySteps issuedAt with
    | none => some (.error .invalidLifetime)
    | some expiresAt =>
      if expiresAt ≤ issuedAt then some (.error .invalidLifetime)
      else
        let authTime ← (builder.authTime.map Reading.wholeSecond?).getD (some issuedAt)
        some (.ok { builder.claimsUntil now fresh expiresAt with issuedAt, authTime })

/-- The steps of the expiry have a result, which is the expiry. -/
theorem expirySteps_eq (builder : ClaimsBuilder) (now : Instant) :
    builder.expirySteps (builder.issuance now) = some (builder.expiry? now) := by
  rw [expirySteps, expiry?]
  cases builder.expiresAt with
  | some reading => simp only [Reading.wholeSecond?_eq, Option.map_some]
  | none =>
    simp only [Instant.addSigned?_eq_add?]
    cases (builder.issuance now).add? (builder.lifetime.getD defaultLifetime) with
    | none => rfl
    | some expiry =>
      simp only [Reading.wholeSecond?_eq, Option.map_some, Instant.universal_reading]

/-- The steps of building have an outcome, which is that of building. -/
theorem buildSteps_eq (builder : ClaimsBuilder) (now : Instant) (fresh : TokenId) :
    builder.buildSteps now fresh = some (builder.build now fresh) := by
  have hissuedAt : (builder.issuedAt.getD now.reading).wholeSecond? =
      some (builder.issuance now) := by
    rw [Reading.wholeSecond?_eq, issuance]
    cases builder.issuedAt <;> rfl
  have hauthTime : (builder.authTime.map Reading.wholeSecond?).getD (some (builder.issuance now)) =
      some ((builder.authTime.map (·.universal.floor)).getD (builder.issuance now)) := by
    cases builder.authTime with
    | none => rfl
    | some reading => exact reading.wholeSecond?_eq
  rw [buildSteps, build]
  cases builder.emptyField? with
  | some name => rfl
  | none =>
    simp only [hissuedAt, expirySteps_eq, hauthTime, Option.bind_eq_bind, Option.bind_some]
    cases builder.expiry? now with
    | none => rfl
    | some expiresAt =>
      dsimp only
      split
      · rfl
      · rfl

/-- Building is exact. It fails for the first field that is empty; where none is, it fails for the
lifetime just when the second of the expiry is not later than that of the issuance or, without a
named expiry, is later than the last second; and else it leads to the claims that the builder
describes, whose instants are these seconds. Whole seconds are at or below their instants, also
before 1970. Where an expiry is named, the lifetime makes no difference. No conversion, sum or
difference leads out of the range of instants, but for those that are checked and make the lifetime
invalid. -/
theorem build_exact (builder : ClaimsBuilder) (now : Instant) (fresh : TokenId) :
    (∀ name, builder.build now fresh = .error (.missingField name) ↔ builder.FirstEmpty name) ∧
    ((∀ field ∈ builder.requiredFields, field.2 ≠ "") →
      (builder.build now fresh = .error .invalidLifetime ↔ builder.LifetimeInvalid now) ∧
      (¬builder.LifetimeInvalid now → ∃ claims, builder.build now fresh = .ok claims ∧
        claims = builder.claimsUntil now fresh claims.expiresAt ∧
        claims.issuedAt.nanos = builder.issuanceSecond now * 1000000000 ∧
        claims.expiresAt.nanos = builder.expirySecond now * 1000000000 ∧
        claims.authTime.nanos = builder.authSecond now * 1000000000)) ∧
    (∀ i : Instant, i.floor.nanos ≤ i.nanos ∧ i.nanos < i.floor.nanos + 1000000000 ∧
      i.floor.nanos = i.seconds * 1000000000) ∧
    (∀ reading lifetime, builder.expiresAt = some reading →
      { builder with lifetime }.build now fresh = builder.build now fresh) ∧
    builder.buildSteps now fresh = some (builder.build now fresh) := by
  refine ⟨fun name => build_eq_missingField_iff, fun hfields => ?_, Instant.floor_spec,
    fun reading lifetime hexpiresAt => ?_, buildSteps_eq builder now fresh⟩
  · have hempty : builder.emptyField? = none := by
      apply emptyField?_eq_none_iff.mpr
      simpa [requiredFields] using hfields
    constructor
    · rw [build_eq_invalidLifetime_iff]
      exact and_iff_right hempty
    · intro hlifetime
      obtain ⟨expiresAt, hnanos, hbuild⟩ := exists_build hempty hlifetime fresh
      exact ⟨_, hbuild, rfl, issuance_nanos builder now, hnanos,
        authTime_claimsUntil builder now fresh expiresAt⟩
  · have hexpiry : { builder with lifetime }.expiry? now = builder.expiry? now := by
      simp only [expiry?, hexpiresAt]
    rw [build, build, hexpiry]
    rfl

/-- A builder whose instants are before 1970 and within their seconds, on clocks with offsets. -/
def sampleBuilder : ClaimsBuilder where
  clientId := ⟨"client-1"⟩
  issuer := "https://idp.example.org"
  subject := "user-1"
  issuedAt := some { instant := ⟨-1, by decide, by decide⟩, offset := 7200 }
  lifetime := some { nanos := 1500000000 }
  authTime := some { instant := ⟨-1500000000, by decide, by decide⟩, offset := -3600 }

/-- The sample claims are issued in the last second before 1970 and expire when it is over, and the
authentication was in the second before. With the longest lifetime there are no such claims, unless
an expiry is named; and without a subject there are none at all. -/
theorem build_exact_sample :
    (∃ claims, sampleBuilder.build Instant.last ⟨"token-1"⟩ = .ok claims ∧
      claims.issuedAt.nanos = -1000000000 ∧ claims.expiresAt.nanos = 0 ∧
      claims.authTime.nanos = -2000000000 ∧ claims.lineage = ⟨"token-1"⟩) ∧
    { sampleBuilder with lifetime := some Span.longest }.build Instant.last ⟨"token-1"⟩ =
      .error .invalidLifetime ∧
    (∃ claims, { sampleBuilder with
        lifetime := some Span.longest, expiresAt := some Instant.last.reading }.build
      Instant.last ⟨"token-1"⟩ = .ok claims ∧ claims.expiresAt = Instant.last.floor) ∧
    { sampleBuilder with subject := "", issuer := "" }.build Instant.last ⟨"token-1"⟩ =
      .error (.missingField "issuer") := by
  refine ⟨?_, ?_, ?_, ?_⟩
  · obtain ⟨claims, hbuild, hclaims, hissuedAt, hexpiresAt, hauthTime⟩ :=
      ((build_exact sampleBuilder Instant.last ⟨"token-1"⟩).2.1 (by decide)).2 (by decide)
    exact ⟨claims, hbuild, hissuedAt, hexpiresAt, hauthTime, by rw [hclaims]; rfl⟩
  · exact ((build_exact _ Instant.last ⟨"token-1"⟩).2.1 (by decide)).1.mpr (by decide)
  · obtain ⟨claims, hbuild, hclaims, -, hexpiresAt, -⟩ :=
      ((build_exact { sampleBuilder with
        lifetime := some Span.longest, expiresAt := some Instant.last.reading }
        Instant.last ⟨"token-1"⟩).2.1 (by decide)).2 (by decide)
    exact ⟨claims, hbuild, Instant.ext hexpiresAt⟩
  · exact ((build_exact _ Instant.last ⟨"token-1"⟩).1 "issuer").mpr
      ⟨[("client_id", "client-1")], [("subject", "")], rfl, by decide⟩

end ClaimsBuilder

end OpaqueTokens
