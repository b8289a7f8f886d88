import OpaqueTokens.Json.Double

/-!
# Numbers of a document

A number is written as an optional sign, whole digits without a leading zero, and optionally a
fraction and an exponent. It stands for an integer if it has neither and fits in sixty-four bits
with or without a sign, and for a number of double precision otherwise.
-/

namespace OpaqueTokens.Json

/-- The value of a number. -/
inductive Number where
  | integer (value : Int)
  | double (value : Double)
  deriving DecidableEq, Repr

/-- A number as it is written; the digits are values below ten. -/
structure NumberText where
  negative : Bool
  whole : List Nat
  fraction : List Nat := []
  exponent : Option (Bool × List Nat) := none
  deriving DecidableEq, Repr

namespace NumberText

/-- The value of a digit. -/
def digit? (b : UInt8) : Option Nat :=
  if 0x30 ≤ b ∧ b ≤ 0x39 then some (b.toNat - 0x30) else none

/-- The digits at the front of the bytes, and the bytes after them. -/
def takeDigits : List UInt8 → List Nat × List UInt8
  | [] => ([], [])
  | b :: rest =>
    match digit? b with
    | some d => let (ds, rest) := takeDigits rest; (d :: ds, rest)
    | none => ([], b :: rest)

/-- Reads the exponent, if the bytes hold one and nothing else. -/
def exponent? : List UInt8 → Option (Option (Bool × List Nat))
  | [] => some none
  | b :: rest =>
    if b = 0x65 ∨ b = 0x45 then
      let (negative, rest) :=
        match rest with
        | 0x2D :: rest => (true, rest)
        | 0x2B :: rest => (false, rest)
        | rest => (false, rest)
      match takeDigits rest with
      | ([], _) => none
      | (digits, []) => some (some (negative, digits))
      | _ => none
    else none

/-- Reads the fraction and what follows it. -/
def fraction? : List UInt8 → Option (List Nat × Option (Bool × List Nat))
  | 0x2E :: rest =>
    match takeDigits rest with
    | ([], _) => none
    | (digits, rest) => (exponent? rest).map (digits, ·)
  | rest => (exponent? rest).map ([], ·)

/-- Reads a number that takes up all of the bytes. -/
def ofBytes? (bytes : List UInt8) : Option NumberText :=
  let (negative, rest) :=
    match bytes with
    | 0x2D :: rest => (true, rest)
    | rest => (false, rest)
  match takeDigits rest with
  | ([], _) => none
  | (0 :: _ :: _, _) => none
  | (whole, rest) =>
    (fraction? rest).map fun (fraction, exponent) => ⟨negative, whole, fraction, exponent⟩

/-- The number that decimal digits spell. -/
def decimal (digits : List Nat) : Nat :=
  digits.foldl (fun n d => 10 * n + d) 0

/-- A significand with the digits from the left that still fit in sixty-four bits, and how many
of them do. -/
def absorb : Nat → List Nat → Nat × Nat
  | significand, [] => (significand, 0)
  | significand, d :: rest =>
    if 10 * significand + d < Nat.pow 2 64 then
      let (total, count) := absorb (10 * significand + d) rest
      (total, count + 1)
    else (significand, 0)

/-- The double nearest to a significand, scaled by a power of ten. A power within the finite
range is applied in one step of its own rounding; lower powers are applied in steps of 308. -/
def scale? : Nat → Double → Int → Option Double
  | 0, _, _ => none
  | bound + 1, x, exponent =>
    if exponent.natAbs ≤ 308 then do
      let power ← Double.ofRatio? false (Nat.pow 10 exponent.natAbs) 1
      if 0 ≤ exponent then x.mul? power else x.div? power
    else if x.significand = 0 then some x
    else if 0 ≤ exponent then none
    else do
      let power ← Double.ofRatio? false (Nat.pow 10 308) 1
      let x ← x.div? power
      scale? bound x (exponent + 308)

/-- The largest exponent that is told apart; beyond it every number is zero or too large. -/
def exponentBound : Nat := 2147483647

/-- The value of a number with a fraction, an exponent, or too many digits for an integer. -/
def double? (text : NumberText) : Option Double := do
  let (significand, taken) := absorb 0 text.whole
  let (significand, placed) := absorb significand text.fraction
  let shift : Int := ((text.whole.length - taken : Nat) : Int) - (placed : Int)
  let start ← Double.ofRatio? text.negative significand 1
  match text.exponent with
  | none => scale? (shift.natAbs / 308 + 3) start shift
  | some (below, digits) =>
    if exponentBound < decimal digits then
      if significand ≠ 0 ∧ ¬below then none else some ⟨text.negative, 0, Double.leastExponent⟩
    else
      let exponent := if below then shift - decimal digits else shift + decimal digits
      -- Three steps of 308 take every significand to zero.
      scale? 6 start exponent

/-- The value of a number; there is none where it lies beyond the finite doubles. -/
def value? (text : NumberText) : Option Number :=
  let n := decimal text.whole
  if text.fraction = [] ∧ text.exponent = none then
    if text.negative then
      if 0 < n ∧ n ≤ Nat.pow 2 63 then some (.integer (-(n : Int)))
      else text.double?.map .double
    else if n < Nat.pow 2 64 then some (.integer n)
    else text.double?.map .double
  else text.double?.map .double

/-- The value of a number that is a signed integer of sixty-four bits. -/
def integer? (text : NumberText) : Option Int :=
  match text.value? with
  | some (.integer i) => if i < Nat.pow 2 63 then some i else none
  | _ => none

end NumberText

end OpaqueTokens.Json
