import OpaqueTokens.Proofs.Claims.Containment
import OpaqueTokens.Proofs.Codec

/-!
# Reduced scopes

A refresh may ask for less than was granted. It is refused if it asks for nothing of a grant that
covers something, and otherwise for its lifetime only. What it gets is what it asks for of the
grant, and the attributes only together with the whole. So nothing of a request counts but its
overlap with the grant, and who asks for more never gets less.
-/

namespace OpaqueTokens

open Time (Instant Span)

/-- A client asks for the values of the scope that it names, and for every value if it names
none. -/
def Requests (requested : Option Scope) (value : String) : Prop :=
  ∀ scope ∈ requested, value ∈ scope.values

/-- Whether a client asks for a value can be decided. -/
instance (requested : Option Scope) (value : String) : Decidable (Requests requested value) :=
  inferInstanceAs (Decidable (∀ scope ∈ requested, _))

namespace RefreshClaims

/-- A request misses a grant that covers something if it names a scope with nothing of it. -/
structure MissedBy (refresh : RefreshClaims) (requested : Option Scope) : Prop where
  granted : refresh.common.scope.values ≠ []
  disjoint : ∃ scope ∈ requested, ∀ value ∈ refresh.common.scope.values, value ∉ scope.values

/-- An access token covers what is requested of a grant. It has the attributes of the grant if that
is all of its scope, and none otherwise. -/
structure ReducedTo (refresh : RefreshClaims) (requested : Option Scope) (access : AccessClaims) :
    Prop where
  scope : ∀ value, value ∈ access.common.scope.values ↔
    value ∈ refresh.common.scope.values ∧ Requests requested value
  whole : access.common.scope = refresh.common.scope →
    access.common.consent = refresh.common.consent ∧
      access.common.delivery = refresh.common.delivery
  part : access.common.scope ≠ refresh.common.scope →
    access.common.consent = .empty ∧ access.common.delivery = .empty

/-- The attributes come along with the whole scope only, unless there are none. -/
theorem ReducedTo.keeps_attributes_iff {refresh : RefreshClaims} {requested : Option Scope}
    {access : AccessClaims} (h : refresh.ReducedTo requested access) :
    access.common.consent = refresh.common.consent ∧
        access.common.delivery = refresh.common.delivery ↔
      access.common.scope = refresh.common.scope ∨
        refresh.common.consent = .empty ∧ refresh.common.delivery = .empty := by
  by_cases hwhole : access.common.scope = refresh.common.scope
  · simp [hwhole, h.whole hwhole]
  · obtain ⟨hconsent, hdelivery⟩ := h.part hwhole
    rw [hconsent, hdelivery]
    simp [hwhole, eq_comm]

variable {refresh : RefreshClaims} {requested : Option Scope} {lifetime : Span} {now : Instant}

/-- The effective scope has the values that are granted and requested. -/
theorem mem_effectiveScope_iff {value : String} :
    value ∈ (refresh.effectiveScope requested).values ↔
      value ∈ refresh.common.scope.values ∧ Requests requested value := by
  cases requested with
  | none => simp [effectiveScope, Requests]
  | some scope => simp [effectiveScope, Requests, Scope.mem_intersection_iff]

/-- Requests with the same overlap lead to the same scope. -/
theorem effectiveScope_eq {other : Option Scope}
    (h : ∀ value ∈ refresh.common.scope.values, Requests requested value ↔ Requests other value) :
    refresh.effectiveScope requested = refresh.effectiveScope other := by
  refine Scope.eq_of_mem_iff fun value => ?_
  rw [mem_effectiveScope_iff, mem_effectiveScope_iff]
  exact and_congr_right (h value)

/-- A request misses a grant just when it cuts a scope with values down to one without. -/
theorem missedBy_iff :
    refresh.MissedBy requested ↔
      (refresh.effectiveScope requested).isEmpty = true ∧
        refresh.common.scope.isEmpty = false := by
  have hempty (scope : Scope) : scope.isEmpty = false ↔ scope.values ≠ [] := by
    simp [Scope.isEmpty]
  constructor
  · rintro ⟨hgranted, scope, hrequested, hdisjoint⟩
    refine ⟨Scope.isEmpty_iff.mpr fun value hvalue => ?_, (hempty _).mpr hgranted⟩
    obtain ⟨hvalue, hrequests⟩ := mem_effectiveScope_iff.mp hvalue
    exact hdisjoint value hvalue (hrequests scope hrequested)
  · rintro ⟨heffective, hgranted⟩
    refine ⟨(hempty _).mp hgranted, ?_⟩
    cases requested with
    | none => exact absurd heffective (Bool.not_eq_true _ ▸ hgranted)
    | some scope =>
      refine ⟨scope, rfl, fun value hvalue hscope => ?_⟩
      exact Scope.isEmpty_iff.mp heffective value
        (mem_effectiveScope_iff.mpr ⟨hvalue, fun _ heq => Option.some.inj heq ▸ hscope⟩)

/-- Whether a request misses a grant can be decided. -/
instance : Decidable (refresh.MissedBy requested) :=
  decidable_of_iff _ missedBy_iff.symm

/-- A request that misses the grant is refused for that, whatever its lifetime. -/
theorem accessToken_of_missedBy (h : refresh.MissedBy requested) (fresh : TokenId) :
    refresh.accessToken requested lifetime now fresh =
      .error (.invalidScope "requested scope does not overlap the granted scope") := by
  obtain ⟨heffective, hgranted⟩ := missedBy_iff.mp h
  simp [accessToken, heffective, hgranted]

/-- Of a request that does not miss the grant the claims are derived. -/
theorem accessToken_of_not_missedBy (h : ¬refresh.MissedBy requested) (fresh : TokenId) :
    refresh.accessToken requested lifetime now fresh =
      (((refresh.narrowed (refresh.effectiveScope requested)).derive lifetime now fresh).map
        (⟨·⟩)).mapError .ofClaims := by
  refine if_neg fun hcut => h (missedBy_iff.mpr ?_)
  rwa [Bool.and_eq_true, Bool.not_eq_true'] at hcut

/-- A lifetime that cannot be minted is an internal error. -/
theorem accessToken_of_not_mintable (h : refresh.common.WellFormed)
    (hmissed : ¬refresh.MissedBy requested) (hlifetime : ¬lifetime.MintableAt now)
    (fresh : TokenId) :
    refresh.accessToken requested lifetime now fresh =
      .error (.internal ClaimsError.invalidLifetime.message) := by
  rw [accessToken_of_not_missedBy hmissed, Claims.derive_eq_error (h.narrowed _) hlifetime]
  rfl

/-- A request that does not miss the grant leads to a token if the lifetime can be minted. -/
theorem exists_accessToken (h : refresh.common.WellFormed) (hmissed : ¬refresh.MissedBy requested)
    (hlifetime : lifetime.MintableAt now) (fresh : TokenId) :
    ∃ access, refresh.accessToken requested lifetime now fresh = .ok access := by
  obtain ⟨derived, hderived⟩ := Claims.exists_derive
    (h.narrowed (refresh.effectiveScope requested)) hlifetime fresh
  exact ⟨⟨derived⟩, by rw [accessToken_of_not_missedBy hmissed, hderived]; rfl⟩

/-- A refresh is refused for its scope just when the request misses the grant. -/
theorem exists_invalidScope_iff (h : refresh.common.WellFormed) (fresh : TokenId) :
    (∃ detail, refresh.accessToken requested lifetime now fresh = .error (.invalidScope detail)) ↔
      refresh.MissedBy requested := by
  constructor
  · rintro ⟨detail, hrefused⟩
    by_contra hmissed
    by_cases hlifetime : lifetime.MintableAt now
    · obtain ⟨access, haccess⟩ := exists_accessToken h hmissed hlifetime fresh
      simp [haccess] at hrefused
    · simp [accessToken_of_not_mintable h hmissed hlifetime] at hrefused
  · intro hmissed
    exact ⟨_, accessToken_of_missedBy hmissed fresh⟩

/-- A request that does not miss the grant is refused just when the lifetime cannot be minted. -/
theorem exists_internal_iff (h : refresh.common.WellFormed) (hmissed : ¬refresh.MissedBy requested)
    (fresh : TokenId) :
    (∃ detail, refresh.accessToken requested lifetime now fresh = .error (.internal detail)) ↔
      ¬lifetime.MintableAt now := by
  constructor
  · rintro ⟨detail, hrefused⟩ hlifetime
    obtain ⟨access, haccess⟩ := exists_accessToken h hmissed hlifetime fresh
    simp [haccess] at hrefused
  · intro hlifetime
    exact ⟨_, accessToken_of_not_mintable h hmissed hlifetime fresh⟩

/-- The token of a refresh covers what is requested of the grant. -/
theorem reducedTo_of_accessToken (h : refresh.common.WellFormed) {fresh : TokenId}
    {access : AccessClaims}
    (haccess : refresh.accessToken requested lifetime now fresh = .ok access) :
    refresh.ReducedTo requested access := by
  obtain ⟨-, hderived⟩ := accessToken_eq_ok_iff.mp haccess
  obtain ⟨hcut, hscope⟩ :=
    refresh.contained_narrowed (refresh.containsAll_effectiveScope requested)
  obtain ⟨hderives, hsame⟩ :=
    Claims.contained_of_derive (h.narrowed _).floor_authTime hderived
  have hcontained := hderives.trans hcut
  refine ⟨fun value => ?_, hcontained.whole, hcontained.part⟩
  rw [hsame, hscope]
  exact mem_effectiveScope_iff

/-- What is refused or granted depends on the overlap alone. -/
theorem accessToken_congr {other : Option Scope}
    (h : ∀ value ∈ refresh.common.scope.values, Requests requested value ↔ Requests other value)
    (fresh : TokenId) :
    refresh.accessToken requested lifetime now fresh =
      refresh.accessToken other lifetime now fresh := by
  rw [accessToken, accessToken, effectiveScope_eq h]

/-- A wider request misses no grant that a narrower one meets. -/
theorem MissedBy.of_wider {wider : Option Scope}
    (hwider : ∀ value, Requests requested value → Requests wider value)
    (h : refresh.MissedBy wider) : refresh.MissedBy requested := by
  obtain ⟨heffective, hgranted⟩ := missedBy_iff.mp h
  refine missedBy_iff.mpr ⟨Scope.isEmpty_iff.mpr fun value hvalue => ?_, hgranted⟩
  obtain ⟨hvalue, hrequests⟩ := mem_effectiveScope_iff.mp hvalue
  exact Scope.isEmpty_iff.mp heffective value
    (mem_effectiveScope_iff.mpr ⟨hvalue, hwider value hrequests⟩)

/-- Where a request leads to a token, a wider one leads to a token that covers as much. -/
theorem exists_wider_accessToken (h : refresh.common.WellFormed) {wider : Option Scope}
    (hwider : ∀ value, Requests requested value → Requests wider value) {fresh : TokenId}
    {access : AccessClaims}
    (haccess : refresh.accessToken requested lifetime now fresh = .ok access) :
    ∃ widerAccess, refresh.accessToken wider lifetime now fresh = .ok widerAccess ∧
      widerAccess.common.scope.containsAll access.common.scope = true := by
  have hmissed : ¬refresh.MissedBy requested := fun hmissed => by
    simp [accessToken_of_missedBy hmissed] at haccess
  have hlifetime : lifetime.MintableAt now :=
    Claims.mintable_of_derive (accessToken_eq_ok_iff.mp haccess).2
  obtain ⟨widerAccess, hwiderAccess⟩ :=
    exists_accessToken h (fun hmiss => hmissed (hmiss.of_wider hwider)) hlifetime fresh
  refine ⟨widerAccess, hwiderAccess, Scope.containsAll_iff.mpr fun value hvalue => ?_⟩
  obtain ⟨hgranted, hrequests⟩ := ((reducedTo_of_accessToken h haccess).scope value).mp hvalue
  exact ((reducedTo_of_accessToken h hwiderAccess).scope value).mpr
    ⟨hgranted, hwider value hrequests⟩

/-- A refresh is refused for its scope just when it misses the grant. Otherwise it is refused for
its lifetime just when that cannot be minted, and leads to a token of what is requested of the grant
if it can. Requests with the same overlap have the same outcome, and a wider request leads to a
token that covers as much. -/
theorem reduction_exact_and_monotone (h : refresh.common.Built) (requested : Option Scope)
    (lifetime : Span) (now : Instant) (fresh : TokenId) :
    ((∃ detail, refresh.accessToken requested lifetime now fresh = .error (.invalidScope detail)) ↔
      refresh.MissedBy requested) ∧
    (¬refresh.MissedBy requested →
      ((∃ detail, refresh.accessToken requested lifetime now fresh = .error (.internal detail)) ↔
        ¬lifetime.MintableAt now) ∧
      (lifetime.MintableAt now → ∃ access,
        refresh.accessToken requested lifetime now fresh = .ok access ∧
          refresh.ReducedTo requested access ∧
          (access.common.consent = refresh.common.consent ∧
              access.common.delivery = refresh.common.delivery ↔
            access.common.scope = refresh.common.scope ∨
              refresh.common.consent = .empty ∧ refresh.common.delivery = .empty))) ∧
    (∀ other : Option Scope,
      (∀ value ∈ refresh.common.scope.values, Requests requested value ↔ Requests other value) →
        refresh.accessToken requested lifetime now fresh =
          refresh.accessToken other lifetime now fresh) ∧
    ∀ (wider : Option Scope) (access : AccessClaims),
      (∀ value, Requests requested value → Requests wider value) →
      refresh.accessToken requested lifetime now fresh = .ok access →
        ∃ widerAccess, refresh.accessToken wider lifetime now fresh = .ok widerAccess ∧
          widerAccess.common.scope.containsAll access.common.scope = true := by
  have hwellFormed := h.wellFormed
  refine ⟨exists_invalidScope_iff hwellFormed fresh, fun hmissed =>
    ⟨exists_internal_iff hwellFormed hmissed fresh, fun hlifetime => ?_⟩,
    fun other hsame => accessToken_congr hsame fresh,
    fun wider access hwider haccess => exists_wider_accessToken hwellFormed hwider haccess⟩
  obtain ⟨access, haccess⟩ := exists_accessToken hwellFormed hmissed hlifetime fresh
  have hreduced := reducedTo_of_accessToken hwellFormed haccess
  exact ⟨access, haccess, hreduced, hreduced.keeps_attributes_iff⟩

/-- A grant of two values that releases an attribute. -/
def sampleGrant : RefreshClaims where
  common := Codec.sampleCode.common

/-- The sample grant has nothing of a scope of which no value was granted. A value that was not
granted makes no difference to a scope of which one was, and who names no scope gets more. -/
theorem reduction_exact_and_monotone_sample :
    sampleGrant.common.Built ∧
      (∃ detail, sampleGrant.accessToken (some (Scope.ofText "admin")) .fiveMinutes
        sampleGrant.common.issuedAt ⟨"fresh"⟩ = .error (.invalidScope detail)) ∧
      ∃ access, sampleGrant.accessToken (some (Scope.ofText "profile admin")) .fiveMinutes
          sampleGrant.common.issuedAt ⟨"fresh"⟩ = .ok access ∧
        sampleGrant.accessToken (some (Scope.ofText "profile")) .fiveMinutes
          sampleGrant.common.issuedAt ⟨"fresh"⟩ = .ok access ∧
        access.common.consent = .empty ∧ access.common.delivery = .empty ∧
        ∃ whole, sampleGrant.accessToken none .fiveMinutes
            sampleGrant.common.issuedAt ⟨"fresh"⟩ = .ok whole ∧
          whole.common.scope.containsAll access.common.scope = true := by
  have hbuilt : sampleGrant.common.Built := Codec.sampleCode_built
  obtain ⟨hmissed, -⟩ := reduction_exact_and_monotone hbuilt (some (Scope.ofText "admin"))
    .fiveMinutes sampleGrant.common.issuedAt ⟨"fresh"⟩
  obtain ⟨-, hserved, hsame, hwider⟩ := reduction_exact_and_monotone hbuilt
    (some (Scope.ofText "profile admin")) .fiveMinutes sampleGrant.common.issuedAt ⟨"fresh"⟩
  obtain ⟨access, haccess, hreduced, -⟩ := (hserved (by decide +kernel)).2 (by decide)
  have hpart : access.common.scope ≠ sampleGrant.common.scope := fun hwhole => by
    have hopenid : "openid" ∈ access.common.scope.values := by rw [hwhole]; decide +kernel
    exact absurd ((hreduced.scope _).mp hopenid).2 (by decide +kernel)
  obtain ⟨hconsent, hdelivery⟩ := hreduced.part hpart
  refine ⟨hbuilt, hmissed.mpr (by decide +kernel), access, haccess, ?_, hconsent, hdelivery,
    hwider none access (fun _ _ => nofun) haccess⟩
  rw [← hsame (some (Scope.ofText "profile")) (by decide +kernel)]
  exact haccess

end RefreshClaims

end OpaqueTokens
