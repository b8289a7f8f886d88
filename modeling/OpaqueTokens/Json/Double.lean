/-!
# Numbers of double precision

A fraction or an exponent in a document makes a number of double precision: a sign and a
significand of fifty-three bits times a power of two. All arithmetic here is exact integer
arithmetic followed by one rounding to the nearest such number, half-way cases to the even
significand. Writing uses the fewest digits that read back as the same number, and of those the
nearest.
-/

namespace OpaqueTokens.Json

/-- A finite number of double precision: its sign, and a significand below 2^53 that counts
units of a power of two. The significand is at least 2^52 unless the power is the lowest one. -/
structure Double where
  negative : Bool
  significand : Nat
  exponent : Int
  deriving DecidableEq, Repr

namespace Double

/-- The lowest power of two that a significand can count. -/
def leastExponent : Int := -1074

/-- The highest one. -/
def greatestExponent : Int := 971

/-- The quotient rounded to the nearest integer, a half to the even one. -/
def roundDiv (num den : Nat) : Nat :=
  let quotient := num / den
  let twice := 2 * (num % den)
  if twice < den ∨ (twice = den ∧ quotient % 2 = 0) then quotient else quotient + 1

/-- A power of two times a natural number, as the numerator and denominator of a fraction. -/
def scaled (n : Nat) (exponent : Int) : Nat × Nat :=
  if 0 ≤ exponent then (n * Nat.pow 2 exponent.toNat, 1)
  else (n, Nat.pow 2 (-exponent).toNat)

/-- The power of two at or below a positive fraction. -/
def log2Ratio (num den : Nat) : Int :=
  let guess : Int := (Nat.log2 num : Int) - (Nat.log2 den : Int)
  let (n, d) := scaled den guess
  if num * d < n then guess - 1 else guess

/-- The nearest number to a fraction, unless it lies beyond the finite ones. -/
def ofRatio? (negative : Bool) (num den : Nat) : Option Double :=
  if num = 0 then some ⟨negative, 0, leastExponent⟩
  else
    let exponent := max leastExponent (log2Ratio num den - 52)
    let (n, d) := scaled den exponent
    let significand := roundDiv (num * d) n
    let (significand, exponent) :=
      if significand = Nat.pow 2 53 then (Nat.pow 2 52, exponent + 1) else (significand, exponent)
    if greatestExponent < exponent then none else some ⟨negative, significand, exponent⟩

/-- The magnitude of a number as the numerator and denominator of a fraction. -/
def ratio (x : Double) : Nat × Nat :=
  scaled x.significand x.exponent

/-- The magnitude of one number times that of another. -/
def mul? (x y : Double) : Option Double :=
  ofRatio? x.negative (x.ratio.1 * y.ratio.1) (x.ratio.2 * y.ratio.2)

/-- The magnitude of one number divided by that of another. -/
def div? (x y : Double) : Option Double :=
  ofRatio? x.negative (x.ratio.1 * y.ratio.2) (x.ratio.2 * y.ratio.1)

/-- The decimal digits of a positive number without leading zeros, and the power of ten that the
last of them counts: the first grid of one to seventeen digits with a point that reads back, and
of its two points around the number the nearer. -/
def shortest (x : Double) : Nat × Int :=
  let (num, den) := x.ratio
  let top : Int :=
    if den ≤ num then ((Nat.toDigits 10 (num / den)).length : Int) - 1
    else -((Nat.toDigits 10 (den / num)).length : Int)
  -- In quarters of the unit of the significand the neighbours' midpoints are whole numbers.
  let (unitNum, unitDen) := scaled 1 (x.exponent - 2)
  let centre := 4 * x.significand
  let below :=
    if x.significand = Nat.pow 2 52 ∧ leastExponent < x.exponent then centre - 1
    else centre - 2
  let above := centre + 2
  let closed := x.significand % 2 = 0
  let attempt (count : Nat) : Option (Nat × Int) :=
    let place : Int := top - ((count : Int) - 1)
    let gridNum := Nat.pow 10 place.toNat
    let gridDen := Nat.pow 10 (-place).toNat
    let toGrid (n : Nat) := n * unitNum * gridDen
    let fromGrid (n : Nat) := n * gridNum * unitDen
    let reads (candidate : Nat) : Bool :=
      let position := fromGrid candidate
      if closed then toGrid below ≤ position ∧ position ≤ toGrid above
      else toGrid below < position ∧ position < toGrid above
    let floor := toGrid centre / (gridNum * unitDen)
    let low := reads floor && floor != 0
    let high := reads (floor + 1)
    if low && high then
      let down := toGrid centre - fromGrid floor
      let up := fromGrid (floor + 1) - toGrid centre
      if down < up ∨ (down = up ∧ floor % 2 = 0) then some (floor, place)
      else some (floor + 1, place)
    else if low then some (floor, place)
    else if high then some (floor + 1, place)
    else none
  ((List.range 17).findSome? fun i => attempt (i + 1)).getD (0, 0)

/-- Digits without their trailing zeros, each of which raises the power of ten. -/
def dropZeros : Nat → Nat × Int → Nat × Int
  | 0, pair => pair
  | bound + 1, (digits, place) =>
    if digits ≠ 0 ∧ digits % 10 = 0 then dropZeros bound (digits / 10, place + 1)
    else (digits, place)

/-- An exponent with its mark; it always has a sign. -/
def exponentText (exponent : Int) : List Char :=
  'e' :: (if 0 ≤ exponent then '+' :: (toString exponent).toList else (toString exponent).toList)

/-- Writes the digits: positional from 10^-5 up to 10^16, and with an exponent elsewhere. A
whole number keeps one zero after the point. -/
def layOut (digits : List Char) (place : Int) : List Char :=
  let length : Int := digits.length
  let point := length + place
  if 0 ≤ place ∧ point ≤ 16 then
    digits ++ List.replicate place.toNat '0' ++ ['.', '0']
  else if 0 < point ∧ point ≤ 16 then
    digits.take point.toNat ++ '.' :: digits.drop point.toNat
  else if -5 < point ∧ point ≤ 0 then
    '0' :: '.' :: List.replicate (-point).toNat '0' ++ digits
  else
    match digits with
    | [] => []
    | [only] => only :: exponentText (point - 1)
    | first :: others => first :: '.' :: others ++ exponentText (point - 1)

/-- The text of a number. -/
def toChars (x : Double) : List Char :=
  let body :=
    if x.significand = 0 then ['0', '.', '0']
    else
      let (digits, place) := dropZeros 17 x.shortest
      layOut (Nat.toDigits 10 digits) place
  if x.negative then '-' :: body else body

end Double

end OpaqueTokens.Json
