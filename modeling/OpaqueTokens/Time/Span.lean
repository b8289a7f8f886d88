/-!
# Spans of time

A length of time in nanoseconds, of fewer than 2^64 seconds.
-/

namespace OpaqueTokens.Time

/-- The bound of a span: 2^64 seconds in nanoseconds. -/
def spanBound : Nat := 18446744073709551616000000000

/-- A length of time in nanoseconds. -/
@[ext]
structure Span where
  nanos : Nat
  lt_bound : nanos < spanBound := by decide
  deriving DecidableEq

namespace Span

instance : LE Span := ⟨fun a b => a.nanos ≤ b.nanos⟩
instance : LT Span := ⟨fun a b => a.nanos < b.nanos⟩
instance (a b : Span) : Decidable (a ≤ b) := inferInstanceAs (Decidable (a.nanos ≤ b.nanos))
instance (a b : Span) : Decidable (a < b) := inferInstanceAs (Decidable (a.nanos < b.nanos))

/-- The empty span. -/
def zero : Span := ⟨0, by decide⟩

/-- Five minutes. -/
def fiveMinutes : Span := ⟨300000000000, by decide⟩

/-- Ten minutes. -/
def tenMinutes : Span := ⟨600000000000, by decide⟩

/-- Two hours. -/
def twoHours : Span := ⟨7200000000000, by decide⟩

/-- The span of this many nanoseconds, unless it is too long. -/
def ofNanos? (nanos : Nat) : Option Span :=
  if h : nanos < spanBound then some ⟨nanos, h⟩ else none

/-- The span of this many seconds and nanoseconds, unless it is too long. -/
def ofParts? (seconds nanos : Nat) : Option Span :=
  ofNanos? (seconds * 1000000000 + nanos)

/-- The whole seconds of a span. -/
def seconds (span : Span) : Nat :=
  span.nanos / 1000000000

/-- The nanoseconds past the whole seconds. -/
def subsecond (span : Span) : Nat :=
  span.nanos % 1000000000

/-- The sum of two spans, unless it is too long. -/
def add? (a b : Span) : Option Span :=
  ofNanos? (a.nanos + b.nanos)

end Span

end OpaqueTokens.Time
