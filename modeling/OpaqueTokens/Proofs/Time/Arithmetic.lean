import OpaqueTokens.Proofs.Time.Instant

/-!
# Arithmetic in steps

Every conversion, sum and difference of instants is taken here as a step of its own, which has no
result where the exact one is out of range. A reading leads to universal time and then, by taking
away the nanoseconds past it, to the whole second; both steps always have a result. A span is added
by converting it to a signed length of time, whose seconds must fit in sixty-four bits, and adding
that; one of these steps is without a result just when the sum lies past the last instant. So
nothing is lost by computing with instants as if there were only the last of these checks.
-/

namespace OpaqueTokens.Time

/-- The greatest number of seconds that fits in sixty-four bits with a sign. -/
def maxSignedSeconds : Nat := 9223372036854775807

/-- A span as a signed length of time in nanoseconds, unless it has too many seconds. -/
def Span.signed? (span : Span) : Option Int :=
  if span.seconds ≤ maxSignedSeconds then some span.nanos else none

/-- The longest span there is. -/
def Span.longest : Span := ⟨spanBound - 1, by decide⟩

namespace Instant

/-- The instant a signed length of time later, unless it is out of range. -/
def shift? (i : Instant) (nanos : Int) : Option Instant :=
  ofNanos? (i.nanos + nanos)

/-- The instant a span later, by a conversion and a sum. -/
def addSigned? (i : Instant) (span : Span) : Option Instant :=
  span.signed?.bind i.shift?

/-- Taking away the nanoseconds past the whole second leads to the whole second. -/
theorem shift?_neg_subsecond (i : Instant) : i.shift? (-i.subsecond) = some i.floor := by
  apply ofNanos?_eq_some_iff.mpr
  have hcast : (i.subsecond : Int) = i.nanos % 1000000000 :=
    Int.toNat_of_nonneg (Int.emod_nonneg _ (by decide))
  rw [hcast, floor_nanos, seconds]
  omega

/-- A span that is too long to be converted leads past the last instant from everywhere. -/
theorem last_lt_of_signed?_eq_none {span : Span} (h : span.signed? = none) (i : Instant) :
    lastNanos < i.nanos + span.nanos := by
  have hlong : maxSignedSeconds < span.seconds := by simpa [Span.signed?] using h
  have hfirst := i.first_le
  simp only [maxSignedSeconds, Span.seconds, firstNanos, lastNanos] at *
  omega

/-- Both steps of adding a span have a result just when the sum is in range. -/
theorem addSigned?_eq_add? (i : Instant) (span : Span) : i.addSigned? span = i.add? span := by
  cases hsigned : span.signed? with
  | none =>
    have hpast := last_lt_of_signed?_eq_none hsigned i
    rw [addSigned?, hsigned, Option.bind_none, add?_eq_none_iff.mpr hpast]
  | some nanos =>
    have hnanos : (span.nanos : Int) = nanos := by
      simp only [Span.signed?, Option.ite_none_right_eq_some, Option.some.injEq] at hsigned
      exact hsigned.2
    rw [addSigned?, hsigned, Option.bind_some, shift?, add?, hnanos]

/-- Where one of the steps has no result, what is counted from an instant ends with the last one,
and no instant lies further ahead than the span. -/
theorem after_of_signed?_or_lt {i j : Instant} {span : Span}
    (h : span.signed? = none ∨ lastNanos < i.nanos + span.nanos) :
    i.after span = last ∧ j.nanos - i.nanos ≤ span.nanos := by
  have hpast : lastNanos < i.nanos + span.nanos :=
    h.elim (last_lt_of_signed?_eq_none · i) id
  have hlast := j.le_last
  constructor
  · rw [after, add?_eq_none_iff.mpr hpast, Option.getD_none]
  · omega

end Instant

namespace Reading

/-- The instant of a reading, from what the clock showed and its offset. -/
def toUniversal? (reading : Reading) : Option Instant :=
  Instant.ofNanos? (reading.shown - reading.offset * 1000000000)

/-- The whole second of a reading, by a conversion and a difference. -/
def wholeSecond? (reading : Reading) : Option Instant :=
  reading.toUniversal?.bind fun i => i.shift? (-i.subsecond)

/-- Converting a reading to universal time always has a result. -/
theorem toUniversal?_eq (reading : Reading) : reading.toUniversal? = some reading.universal := by
  apply Instant.ofNanos?_eq_some_iff.mpr
  rw [shown, universal, Int.add_sub_cancel]

/-- Cutting a reading to its whole second always has a result. -/
theorem wholeSecond?_eq (reading : Reading) :
    reading.wholeSecond? = some reading.universal.floor := by
  rw [wholeSecond?, toUniversal?_eq, Option.bind_some, Instant.shift?_neg_subsecond]

end Reading

end OpaqueTokens.Time
