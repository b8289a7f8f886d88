import OpaqueTokens.Text.Blank
import OpaqueTokens.Time.Span

/-!
# Spans as people write them

A span is written as numbers with units, `1h 30m` or `90min`, that add up. Reading takes the
numbers in any order and lets units repeat; blanks may stand anywhere outside a unit. A number
may have a fraction where the unit allows it to come out even. Writing uses the largest units
first and leaves out the ones with nothing to count.
-/

namespace OpaqueTokens.Time

open Text (isBlank)

/-- The units of spans. -/
inductive SpanUnit where
  | nanosecond
  | microsecond
  | millisecond
  | second
  | minute
  | hour
  | day
  | week
  | month
  | year
  deriving DecidableEq, Repr

namespace SpanUnit

/-- The unit of a name. -/
def ofName? : String → Option SpanUnit
  | "nanos" | "nsec" | "ns" => some .nanosecond
  | "usec" | "us" | "µs" => some .microsecond
  | "millis" | "msec" | "ms" => some .millisecond
  | "seconds" | "second" | "secs" | "sec" | "s" => some .second
  | "minutes" | "minute" | "min" | "mins" | "m" => some .minute
  | "hours" | "hour" | "hrs" | "hr" | "h" => some .hour
  | "days" | "day" | "d" => some .day
  | "weeks" | "week" | "wk" | "wks" | "w" => some .week
  | "months" | "month" | "M" => some .month
  | "years" | "year" | "yr" | "yrs" | "y" => some .year
  | _ => none

/-- The nanoseconds of a unit. A month is 30.44 days and a year 365.25 days. -/
def nanos : SpanUnit → Nat
  | .nanosecond => 1
  | .microsecond => 1000
  | .millisecond => 1000000
  | .second => 1000000000
  | .minute => 60000000000
  | .hour => 3600000000000
  | .day => 86400000000000
  | .week => 604800000000000
  | .month => 2630016000000000
  | .year => 31557600000000000

/-- The grain that whole numbers of a unit are counted in: nanoseconds below the second and
seconds from there on. -/
def grain (unit : SpanUnit) : Nat :=
  if unit.nanos < 1000000000 then 1 else 1000000000

/-- The grain that fractions of a unit must come out even in: nanoseconds below the hour and
seconds from there on. -/
def fractionGrain (unit : SpanUnit) : Nat :=
  if unit.nanos < 3600000000000 then 1 else 1000000000

end SpanUnit

/-- A number with its unit, as digits and letters. -/
structure SpanPart where
  whole : List Char := []
  fraction : Option (List Char) := none
  name : List Char := []

namespace SpanPart

/-- Where reading stands inside a text of parts. -/
inductive Place where
  | gap
  | whole
  | fraction
  | name

/-- The letters of unit names. -/
def isLetter (c : Char) : Bool :=
  ('a' ≤ c && c ≤ 'z') || ('A' ≤ c && c ≤ 'Z') || c == 'µ'

/-- Splits a text into its parts. The digits and letters of a part are held in order; a part
ends at a blank or a digit after its unit. -/
def split : Place → SpanPart → List Char → Option (List SpanPart)
  | .gap, _, [] => some []
  | _, part, [] => some [part]
  | place, part, c :: rest =>
    match place with
    | .gap =>
      if c.isDigit then split .whole { whole := [c] } rest
      else if isBlank c then split .gap part rest
      else none
    | .whole =>
      if c.isDigit then split .whole { part with whole := part.whole ++ [c] } rest
      else if isBlank c then split .whole part rest
      else if isLetter c then split .name { part with name := [c] } rest
      else if c = '.' then split .fraction { part with fraction := some [] } rest
      else none
    | .fraction =>
      if c.isDigit then
        split .fraction { part with fraction := part.fraction.map (· ++ [c]) } rest
      else if isBlank c then split .fraction part rest
      else if isLetter c then split .name { part with name := [c] } rest
      else none
    | .name =>
      if c.isDigit then (split .whole { whole := [c] } rest).map (part :: ·)
      else if isBlank c then (split .gap {} rest).map (part :: ·)
      else if isLetter c then split .name { part with name := part.name ++ [c] } rest
      else none

/-- The number that decimal digits spell. -/
def decimal (digits : List Char) : Nat :=
  digits.foldl (fun n c => 10 * n + (c.toNat - 0x30)) 0

/-- The counts that fit in sixty-four bits; reading refuses every larger one it meets. -/
def fit? (n : Nat) : Option Nat :=
  if n < Nat.pow 2 64 then some n else none

/-- Adds a count of grains to a span. Nanoseconds are added to the ones already past the whole
second, and that sum must fit as well. -/
def addGrains (span : Span) (count grain : Nat) : Option Span := do
  if grain = 1 then
    let _ ← fit? (span.subsecond + count)
  (Span.ofNanos? (span.nanos + count * grain))

/-- Adds a part to a span. -/
def addTo (span : Span) (part : SpanPart) : Option Span := do
  let unit ← SpanUnit.ofName? (String.ofList part.name)
  let count ← fit? (decimal part.whole)
  let grains ← fit? (count * (unit.nanos / unit.grain))
  let sum ← addGrains span grains unit.grain
  match part.fraction with
  | none => pure sum
  | some digits =>
    let denominator ← fit? (Nat.pow 10 digits.length)
    if denominator = 1 ∨ unit = .nanosecond then none
    else
      let numerator ← fit? (decimal digits * (unit.nanos / unit.fractionGrain))
      if numerator % denominator = 0 then
        addGrains sum (numerator / denominator) unit.fractionGrain
      else none

end SpanPart

namespace Span

/-- Reads a span. A zero on its own needs no unit. -/
def ofText? (text : String) : Option Span := do
  if text = "0" then pure zero
  else
    let parts ← SpanPart.split .gap {} text.toList
    if parts.isEmpty then none else parts.foldlM SpanPart.addTo zero

/-- A count with an abbreviated unit; nothing where there is nothing to count. -/
def abbreviated (count : Nat) (name : String) : Option String :=
  if count = 0 then none else some (toString count ++ name)

/-- A count with a unit that is spelled out, in the plural from two on. -/
def spelled (count : Nat) (name : String) : Option String :=
  abbreviated count (if count = 1 then name else name ++ "s")

/-- Writes a span. -/
def toText (span : Span) : String :=
  let inYear := span.seconds % 31557600
  let inMonth := inYear % 2630016
  let inDay := inMonth % 86400
  let parts :=
    [spelled (span.seconds / 31557600) "year", spelled (inYear / 2630016) "month",
     spelled (inMonth / 86400) "day", abbreviated (inDay / 3600) "h",
     abbreviated (inDay % 3600 / 60) "m", abbreviated (inDay % 60) "s",
     abbreviated (span.subsecond / 1000000) "ms",
     abbreviated (span.subsecond / 1000 % 1000) "us",
     abbreviated (span.subsecond % 1000) "ns"].filterMap id
  if parts.isEmpty then "0s" else " ".intercalate parts

end Span

end OpaqueTokens.Time
