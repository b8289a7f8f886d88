import OpaqueTokens.Time.Span

/-!
# Instants

A point in time in the years -9999 to 9999, to the nanosecond. An instant has no offset: two
readings of one point in different offsets are the same instant. Second counts are rounded down
to the whole second at or below, also before 1970. What is counted from a reading ends with the
year 9999 of the clock that was read, and so, by universal time, some hours earlier or later.
-/

namespace OpaqueTokens.Time

/-- Nanoseconds from 1970 to the first instant of the year -9999. -/
def firstNanos : Int := -377705116800000000000

/-- Nanoseconds from 1970 to the last instant of the year 9999. -/
def lastNanos : Int := 253402300799999999999

/-- A point in time, as nanoseconds since the start of 1970. -/
@[ext]
structure Instant where
  nanos : Int
  first_le : firstNanos ≤ nanos := by decide
  le_last : nanos ≤ lastNanos := by decide
  deriving DecidableEq

namespace Instant

instance : LE Instant := ⟨fun a b => a.nanos ≤ b.nanos⟩
instance : LT Instant := ⟨fun a b => a.nanos < b.nanos⟩
instance (a b : Instant) : Decidable (a ≤ b) := inferInstanceAs (Decidable (a.nanos ≤ b.nanos))
instance (a b : Instant) : Decidable (a < b) := inferInstanceAs (Decidable (a.nanos < b.nanos))

/-- The last instant of the year 9999. -/
def last : Instant := ⟨lastNanos, by decide, by decide⟩

/-- The instant at this many nanoseconds since 1970, unless it is outside the range. -/
def ofNanos? (nanos : Int) : Option Instant :=
  if h : firstNanos ≤ nanos ∧ nanos ≤ lastNanos then some ⟨nanos, h.1, h.2⟩ else none

/-- The instant at this many whole seconds since 1970, unless it is outside the range. -/
def ofSeconds? (seconds : Int) : Option Instant :=
  ofNanos? (seconds * 1000000000)

/-- The whole seconds since 1970, rounded down. -/
def seconds (i : Instant) : Int :=
  i.nanos / 1000000000

/-- The nanoseconds past the whole second. -/
def subsecond (i : Instant) : Nat :=
  (i.nanos % 1000000000).toNat

/-- The whole second at or below an instant. -/
def floor (i : Instant) : Instant where
  nanos := i.seconds * 1000000000
  first_le := by have := i.first_le; simp only [firstNanos, seconds] at *; omega
  le_last := by have := i.le_last; simp only [lastNanos, seconds] at *; omega

/-- The instant a span later, unless that is past the last one. -/
def add? (i : Instant) (span : Span) : Option Instant :=
  ofNanos? (i.nanos + span.nanos)

/-- The instant a span later, or the last one where there is none. -/
def after (i : Instant) (span : Span) : Instant :=
  (i.add? span).getD last

/-- The whole seconds from one instant until a later one; zero if it is not later. -/
def secondsUntil (now target : Instant) : Nat :=
  ((target.nanos - now.nanos) / 1000000000).toNat

theorem le_def {a b : Instant} : a ≤ b ↔ a.nanos ≤ b.nanos := Iff.rfl

theorem lt_def {a b : Instant} : a < b ↔ a.nanos < b.nanos := Iff.rfl

@[simp] theorem floor_nanos (i : Instant) : i.floor.nanos = i.seconds * 1000000000 := rfl

end Instant

/-- The point in time that something lasts until. It may lie past the last instant. -/
@[ext]
structure Deadline where
  nanos : Int
  deriving DecidableEq

namespace Deadline

instance : LE Deadline := ⟨fun a b => a.nanos ≤ b.nanos⟩
instance : LT Deadline := ⟨fun a b => a.nanos < b.nanos⟩
instance (a b : Deadline) : Decidable (a ≤ b) := inferInstanceAs (Decidable (a.nanos ≤ b.nanos))
instance (a b : Deadline) : Decidable (a < b) := inferInstanceAs (Decidable (a.nanos < b.nanos))

/-- The later of two deadlines. -/
instance : Max Deadline := ⟨fun a b => if a ≤ b then b else a⟩

theorem le_def {a b : Deadline} : a ≤ b ↔ a.nanos ≤ b.nanos := Iff.rfl

theorem lt_def {a b : Deadline} : a < b ↔ a.nanos < b.nanos := Iff.rfl

end Deadline

/-- What lasts until an instant. -/
def Instant.deadline (i : Instant) : Deadline := ⟨i.nanos⟩

@[simp] theorem Instant.deadline_nanos (i : Instant) : i.deadline.nanos = i.nanos := rfl

/-- An instant as a caller gives it: with the offset from universal time, in seconds, of the clock
that it was read from. -/
structure Reading where
  instant : Instant
  offset : Int := 0

namespace Reading

/-- The instant of a reading; the offset changes only how the instant would be written. -/
def universal (reading : Reading) : Instant :=
  reading.instant

/-- The nanoseconds since the clock that was read showed the start of 1970. -/
def shown (reading : Reading) : Int :=
  reading.instant.nanos + reading.offset * 1000000000

/-- The deadline a span after a reading, or the last instant where the clock that was read would
have left the year 9999 by then. -/
def after (reading : Reading) (span : Span) : Deadline :=
  if reading.shown + span.nanos ≤ lastNanos then ⟨reading.instant.nanos + span.nanos⟩
  else Instant.last.deadline

end Reading

namespace Instant

/-- An instant read from a clock that shows universal time. -/
def reading (i : Instant) : Reading := ⟨i, 0⟩

@[simp] theorem universal_reading (i : Instant) : i.reading.universal = i := rfl

/-- By universal time what is counted from a reading ends with the last instant. -/
theorem after_reading (i : Instant) (span : Span) :
    i.reading.after span = (i.after span).deadline := by
  have lower : firstNanos ≤ i.nanos + span.nanos := by have := i.first_le; omega
  by_cases h : i.nanos + span.nanos ≤ lastNanos <;>
    simp [Reading.after, Reading.shown, reading, after, add?, ofNanos?, deadline, lower, h]

end Instant

end OpaqueTokens.Time
