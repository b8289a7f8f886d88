/-!
# Values without quotes

The values of a configuration file that are written without quotes: the two truth values,
numbers, and dates and times. The configuration has no setting that is a number or a date, so
all that is kept of them is whether a number can be read. Some that cannot are let pass here,
because they only do harm where they are read: those out of range, a base without digits, and
integers in which other characters come after the first underscore.
-/

namespace OpaqueTokens.Toml

/-- A value that is written without quotes. -/
inductive Scalar where
  | boolean (value : Bool)
  /-- A number, and whether it can be read as one of those that can be represented. -/
  | number (readable : Bool)
  /-- A date, a time of day, or both. -/
  | moment
  deriving DecidableEq, Repr

namespace Scalar

/-- Removes the underscores between digits; they may not stand anywhere else. -/
def joinDigits? (isDigit : Char → Bool) : List Char → Option (List Char)
  | [] => none
  | [c] => if isDigit c then some [c] else none
  | c :: '_' :: rest =>
    if isDigit c then (joinDigits? isDigit rest).map (c :: ·) else none
  | c :: rest => if isDigit c then (joinDigits? isDigit rest).map (c :: ·) else none

/-- The value of a digit in any base up to sixteen. -/
def digitValue (c : Char) : Nat :=
  if c.isDigit then c.toNat - 48 else c.toNat % 32 + 9

/-- The digits of a base up to sixteen, with letters of either case. -/
def isDigitOf (base : Nat) (c : Char) : Bool :=
  c.isAlphanum && (c.isDigit || c.toNat % 32 ≤ 6) && digitValue c < base

/-- The number that digits spell in a base. -/
def value (base : Nat) (digits : List Char) : Nat :=
  digits.foldl (fun n c => base * n + digitValue c) 0

/-- The integers that can be represented: those of 128 bits, with or without a sign. -/
def integer (negative : Bool) (n : Nat) : Scalar :=
  .number (if negative then n ≤ Nat.pow 2 127 else n < Nat.pow 2 128)

/-- An integer in a base, after the two characters that name the base. The digits may be missing,
but then it cannot be read. -/
def based? (base : Nat) : List Char → Option Scalar
  | [] => some (.number false)
  | chars =>
    (joinDigits? (isDigitOf base) chars).map fun digits => integer false (value base digits)

/-- Decimal digits without a leading zero before other digits. -/
def unpadded? (chars : List Char) : Option (List Char) := do
  let digits ← joinDigits? Char.isDigit chars
  match digits with
  | '0' :: _ :: _ => none
  | digits => some digits

/-- A sign at the front of characters, and the characters after it. -/
def sign : List Char → Bool × List Char
  | '-' :: rest => (true, rest)
  | '+' :: rest => (false, rest)
  | rest => (false, rest)

/-- Whether each underscore has a hexadecimal digit on either side. -/
def isGrouped : List Char → Bool
  | [] => true
  | c :: '_' :: rest => isDigitOf 16 c && rest.head?.any (isDigitOf 16) && isGrouped rest
  | c :: rest => c ≠ '_' && isGrouped rest

/-- Whether characters are let pass as an integer although other characters than digits come
after the first underscore. -/
def isLoose (chars : List Char) : Bool :=
  chars.head? ≠ some '0' && (chars.dropWhile Char.isDigit).head? = some '_' && isGrouped chars

/-- A decimal integer, after its sign. -/
def whole? (negative : Bool) (chars : List Char) : Option Scalar :=
  match unpadded? chars with
  | some digits => some (integer negative (value 10 digits))
  | none => if isLoose chars then some (.number false) else none

/-- Whether a significand times a power of ten lies below all that would round to infinity. -/
def isFinite (digits : List Char) (exponent : Int) : Bool :=
  let significand := value 10 digits
  let magnitude : Int := (digits.dropWhile (· = '0')).length + exponent
  let bound := Nat.pow 2 1024 - Nat.pow 2 970
  if significand = 0 ∨ magnitude < 300 then true
  else if 400 < magnitude then false
  else if 0 ≤ exponent then significand * Nat.pow 10 exponent.toNat < bound
  else significand < bound * Nat.pow 10 (-exponent).toNat

/-- The exponent of a number, after its mark. -/
def exponent? (chars : List Char) : Option Int := do
  let (negative, chars) := sign chars
  let digits ← joinDigits? Char.isDigit chars
  let n := value 10 digits
  pure (if negative then -(n : Int) else n)

/-- The marks of an exponent. -/
def isMark (c : Char) : Bool :=
  c = 'e' || c = 'E'

/-- A number with a fraction, an exponent or both, after its sign. -/
def fractional? (chars : List Char) : Option Scalar := do
  let exponent ←
    match chars.dropWhile (!isMark ·) with
    | [] => some 0
    | _ :: rest => exponent? rest
  match (chars.takeWhile (!isMark ·)).span (· ≠ '.') with
  | (left, []) =>
    let digits ← unpadded? left
    pure (.number (isFinite digits exponent))
  | (left, _ :: right) =>
    let digits ← unpadded? left
    let fraction ← joinDigits? Char.isDigit right
    pure (.number (isFinite (digits ++ fraction) (exponent - fraction.length)))

/-- A decimal number. -/
def decimal? (chars : List Char) : Option Scalar :=
  let (negative, chars) := sign chars
  if chars.any fun c => c = '.' || isMark c then fractional? chars else whole? negative chars

/-- A number of two digits at the front of characters. -/
def twoDigits? : List Char → Option (Nat × List Char)
  | a :: b :: rest =>
    if a.isDigit && b.isDigit then some (10 * digitValue a + digitValue b, rest) else none
  | _ => none

/-- The days of a month. -/
def daysOf (year month : Nat) : Nat :=
  if month = 2 then
    if year % 4 = 0 ∧ (year % 100 ≠ 0 ∨ year % 400 = 0) then 29 else 28
  else if month = 4 ∨ month = 6 ∨ month = 9 ∨ month = 11 then 30
  else 31

/-- What follows a date at the front of characters. -/
def afterDate? (chars : List Char) : Option (List Char) := do
  let (century, chars) ← twoDigits? chars
  let (year, chars) ← twoDigits? chars
  match chars with
  | '-' :: chars =>
    let (month, chars) ← twoDigits? chars
    match chars with
    | '-' :: chars =>
      let (day, chars) ← twoDigits? chars
      if 1 ≤ month ∧ month ≤ 12 ∧ 1 ≤ day ∧ day ≤ daysOf (100 * century + year) month then
        some chars
      else none
    | _ => none
  | _ => none

/-- What follows a time of day at the front of characters; the seconds may be left out. -/
def afterTime? (chars : List Char) : Option (List Char) := do
  let (hour, chars) ← twoDigits? chars
  match chars with
  | ':' :: chars =>
    let (minute, chars) ← twoDigits? chars
    if 23 < hour ∨ 59 < minute then none
    else
      match chars with
      | ':' :: chars =>
        let (second, chars) ← twoDigits? chars
        if 60 < second then none
        else
          match chars with
          | '.' :: chars =>
            if chars.takeWhile Char.isDigit = [] then none
            else some (chars.dropWhile Char.isDigit)
          | chars => some chars
      | chars => some chars
  | _ => none

/-- Whether characters are an offset from universal time, or nothing. -/
def isOffset (chars : List Char) : Bool :=
  match chars with
  | [] | ['Z'] | ['z'] => true
  | sign :: chars =>
    (sign = '+' || sign = '-') &&
      match twoDigits? chars with
      | some (hours, ':' :: chars) =>
        match twoDigits? chars with
        | some (minutes, []) => hours ≤ 23 && minutes ≤ 59
        | _ => false
      | _ => false

/-- Whether characters are a date, a time of day, or both with or without an offset. -/
def isMoment (chars : List Char) : Bool :=
  match afterDate? chars with
  | some [] => true
  | some (separator :: chars) =>
    (separator = 'T' || separator = 't' || separator = ' ') &&
      match afterTime? chars with
      | some rest => isOffset rest
      | none => false
  | none => afterTime? chars = some []

/-- Reads a value that is written without quotes. -/
def ofChars? (chars : List Char) : Option Scalar :=
  match chars with
  | ['t', 'r', 'u', 'e'] => some (.boolean true)
  | ['f', 'a', 'l', 's', 'e'] => some (.boolean false)
  | '0' :: 'x' :: digits => based? 16 digits
  | '0' :: 'o' :: digits => based? 8 digits
  | '0' :: 'b' :: digits => based? 2 digits
  | _ =>
    let unsigned := (sign chars).2
    if unsigned = ['i', 'n', 'f'] ∨ unsigned = ['n', 'a', 'n'] then some (.number true)
    else if isMoment chars then some .moment
    else decimal? chars

end Scalar

end OpaqueTokens.Toml
