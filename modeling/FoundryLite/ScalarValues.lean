import FoundryLite.Errors
import FoundryLite.Library.Calendar
import FoundryLite.Library.Numeral
import Mathlib.Data.Int.Log
import Mathlib.Data.Rat.Floor

/-!
# Scalar values

What a stored value is as a value of the type of its property: a number, a 32-bit integer, a
calendar date or a moment. A value that is not one of these is none.

A fractional number is a rational here, and `nearestDouble` is the one that the program's own
floating-point numbers hold in its place.
-/

namespace FoundryLite.ScalarValues

/-! ### Floating-point numbers -/

/-- The nearest integer, and the even one of two. -/
def roundEven (x : ℚ) : ℤ :=
  let below := ⌊x⌋
  if x - below < 1 / 2 then below
  else if 1 / 2 < x - below then below + 1
  else if below % 2 = 0 then below else below + 1

/-- The nearest number of double precision, where there is a finite one. -/
def nearestDouble (q : ℚ) : Option ℚ :=
  if q = 0 then some 0
  else
    let exponent := max (Int.log 2 |q| - 52) (-1074)
    let rounded : ℚ := roundEven (q / 2 ^ exponent) * (2 : ℚ) ^ exponent
    if |rounded| < 2 ^ 1024 then some rounded else none

/-! ### Numerals -/

def digitsOf (chars : List Char) : Option ℕ :=
  if chars ≠ [] ∧ chars.all Char.isDigit then
    some (Nat.ofDigits 10 (chars.map fun c => c.toNat - '0'.toNat).reverse)
  else none

/-- What stands behind a sign, and the sign. -/
def splitSign : List Char → ℤ × List Char
  | '-' :: rest => (-1, rest)
  | '+' :: rest => (1, rest)
  | rest => (1, rest)

/-- `_INTEGER_PATTERN`. -/
def integerNumeral (text : String) : Option ℤ :=
  let (sign, digits) := splitSign text.toList
  if Text.maxDigits < digits.length then none
  else (digitsOf digits).map fun n => sign * n

/-- Digits with a point in, before or behind them. -/
def mantissa (chars : List Char) : Option ℚ :=
  let (whole, fraction) := Text.partition '.' chars
  match whole, fraction with
  | [], none => none
  | [], some digits => (digitsOf digits).map fun n => (n : ℚ) / 10 ^ digits.length
  | whole, none => (digitsOf whole).map fun n => (n : ℚ)
  | whole, some [] => (digitsOf whole).map fun n => (n : ℚ)
  | whole, some digits => do
    let n ← digitsOf whole
    let m ← digitsOf digits
    return n + (m : ℚ) / 10 ^ digits.length

/-- `_DECIMAL_NUMBER_PATTERN`, as the number it is. -/
def decimalNumeral (text : String) : Option ℚ := do
  let (sign, rest) := splitSign text.toList
  let (digits, power) := Text.partition 'e' (rest.map fun c => if c = 'E' then 'e' else c)
  let value ← mantissa digits
  match power with
  | none => return sign * value
  | some power =>
    let (powerSign, powerDigits) := splitSign power
    let exponent ← digitsOf powerDigits
    return sign * value * (10 : ℚ) ^ (powerSign * exponent)

def finiteNumberValue : Json → Option ℚ
  | .int n => nearestDouble n
  | .float q => some q
  | .str text => (decimalNumeral text).bind nearestDouble
  | _ => none

def integerMinValue : ℤ := -2 ^ 31

def integerMaxValue : ℤ := 2 ^ 31 - 1

def integerValue (value : Json) : Option ℤ :=
  let parsed := match value with
    | .int n => some n
    | .str text => integerNumeral text
    | _ => none
  parsed.filter fun n => integerMinValue ≤ n ∧ n ≤ integerMaxValue

/-! ### Dates and moments -/

/-- The number of a run of digits of a given length. -/
def fixedDigits (length : ℕ) (chars : List Char) : Option ℕ :=
  if chars.length = length then digitsOf chars else none

/-- A date of the calendar, from its three parts. -/
def dateOf (year month day : List Char) : Option (ℕ × ℕ × ℕ) := do
  let y ← fixedDigits 4 year
  let m ← fixedDigits 2 month
  let d ← fixedDigits 2 day
  if 1 ≤ y ∧ 1 ≤ m ∧ m ≤ 12 ∧ 1 ≤ d ∧ d ≤ Calendar.daysInMonth y m then some (y, m, d) else none

def dateNumeral (chars : List Char) : Option (ℕ × ℕ × ℕ) :=
  match chars.splitOn '-' with
  | [year, month, day] => dateOf year month day
  | _ => none

def isIsoDate : Json → Bool
  | .str text => (dateNumeral text.toList).isSome
  | _ => false

/-- The offset from UTC that a moment is written with, in minutes. -/
def offsetMinutes : List Char → Option ℤ
  | ['Z'] => some 0
  | sign :: rest => do
    let toEast ← if sign = '+' then some (1 : ℤ) else if sign = '-' then some (-1) else none
    match Text.partition ':' rest with
    | (hours, some minutes) => do
      let h ← fixedDigits 2 hours
      let m ← fixedDigits 2 minutes
      if h * 60 + m < 1440 then some (toEast * (h * 60 + m : ℕ)) else none
    | _ => none
  | [] => none

/-- A time of day with up to six digits behind the second, in microseconds. -/
def timeOfDay (chars : List Char) : Option ℕ := do
  let (clock, fraction) := Text.partition '.' chars
  let micros ← match fraction with
    | none => some 0
    | some digits =>
      if digits.length ≤ 6 then (digitsOf digits).map (· * 10 ^ (6 - digits.length)) else none
  match clock.splitOn ':' with
  | [hours, minutes, seconds] => do
    let h ← fixedDigits 2 hours
    let m ← fixedDigits 2 minutes
    let s ← fixedDigits 2 seconds
    if h < 24 ∧ m < 60 ∧ s < 60 then some (((h * 60 + m) * 60 + s) * 1000000 + micros) else none
  | _ => none

/-- The ordinal of 1970-01-01. -/
def unixEpoch : ℤ := 719163

/-- The moment of a timestamp with an offset, in microseconds from the Unix epoch. The moment can lie
outside the years that a date can have, where `timestamp_microseconds` overflows. -/
def timestampMoment : Json → Option ℤ
  | .str text => do
    let (date, rest) := text.toList.splitAt 10
    let (y, m, d) ← dateNumeral date
    match rest with
    | [] => none
    | separator :: rest =>
      if separator = 'T' ∨ separator = 't' then do
        let clock := rest.takeWhile fun c => c ≠ 'Z' ∧ c ≠ '+' ∧ c ≠ '-'
        let micros ← timeOfDay clock
        let offset ← offsetMinutes (rest.drop clock.length)
        let days : ℤ := (Calendar.daysBeforeYear y + Calendar.daysBeforeMonth y m + d : ℕ)
        return (days - unixEpoch) * 86400000000 + micros - offset * 60000000
      else none
  | _ => none

example : timestampMoment (.str "1970-01-02T01:00:00.5+01:00") = some 86400500000 := by
  decide +kernel

end FoundryLite.ScalarValues
