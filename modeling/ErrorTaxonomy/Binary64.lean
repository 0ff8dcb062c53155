/-!
# Double-precision numbers

A number with a fraction or an exponent is never kept in a taxonomy, but it may
stand where something else is expected, and is then shown in a message as the
double-precision number that it denotes.  The numbers are exact here: a finite
one is a significand below `2 ^ 53` times a power of two not below `2 ^ (-1074)`,
and every operation rounds the exact result to the nearest number, to the one
with the even significand if two are equally near.
-/

namespace ErrorTaxonomy

inductive Binary64 where
  | finite (negative : Bool) (significand : Nat) (exponent : Int)
  | infinite (negative : Bool)
  | nan
  deriving DecidableEq

namespace Binary64

def zero (negative : Bool) : Binary64 :=
  finite negative 0 (-1074)

/-- The whole part and the remainder, as a ratio, of a ratio divided by a power
of two. -/
def scaled (numerator denominator : Nat) (exponent : Int) : Nat × Nat × Nat :=
  let numerator :=
    if exponent < 0 then numerator * Nat.pow 2 exponent.natAbs else numerator
  let denominator :=
    if exponent < 0 then denominator else denominator * Nat.pow 2 exponent.natAbs
  (numerator / denominator, numerator % denominator, denominator)

/-- The exponent under which a positive ratio has a significand of 53 bits, or
the least exponent. -/
def exponentFor (numerator denominator : Nat) : Int :=
  let low : Int := (numerator.log2 : Int) - denominator.log2 - 53
  let exponent :=
    if Nat.pow 2 53 ≤ (scaled numerator denominator low).1 then low + 1 else low
  max exponent (-1074)

def ofRatio (negative : Bool) (numerator denominator : Nat) : Binary64 :=
  if numerator = 0 then zero negative
  else
    let exponent := exponentFor numerator denominator
    let (whole, remainder, divisor) := scaled numerator denominator exponent
    let roundsUp :=
      divisor < 2 * remainder || (2 * remainder == divisor && whole % 2 == 1)
    let significand := if roundsUp then whole + 1 else whole
    let (significand, exponent) :=
      if significand = Nat.pow 2 53 then (Nat.pow 2 52, exponent + 1)
      else (significand, exponent)
    if 971 < exponent then infinite negative
    else finite negative significand exponent

def ofDecimal (negative : Bool) (digits : Nat) (exponent : Int) : Binary64 :=
  if digits = 0 then zero negative
  else
    let magnitude : Int := (Nat.toDigits 10 digits).length + exponent
    if 310 < magnitude then infinite negative
    else if magnitude < -330 then zero negative
    else if exponent < 0 then ofRatio negative digits (Nat.pow 10 exponent.natAbs)
    else ofRatio negative (digits * Nat.pow 10 exponent.natAbs) 1

def ratio (significand : Nat) (exponent : Int) : Nat × Nat :=
  if exponent < 0 then (significand, Nat.pow 2 exponent.natAbs)
  else (significand * Nat.pow 2 exponent.natAbs, 1)

def multiply : Binary64 → Binary64 → Binary64
  | finite negative a i, finite negative' b j =>
      let (numerator, denominator) := ratio (a * b) (i + j)
      ofRatio (negative != negative') numerator denominator
  | nan, _ => nan
  | _, nan => nan
  | infinite negative, finite negative' b _ =>
      if b = 0 then nan else infinite (negative != negative')
  | finite negative a _, infinite negative' =>
      if a = 0 then nan else infinite (negative != negative')
  | infinite negative, infinite negative' => infinite (negative != negative')

/-- Division by a finite number other than zero. -/
def divide : Binary64 → Binary64 → Binary64
  | finite negative a i, finite negative' b j =>
      let (numerator, denominator) := ratio 1 (i - j)
      ofRatio (negative != negative') (a * numerator) (b * denominator)
  | infinite negative, finite negative' _ _ => infinite (negative != negative')
  | _, _ => nan

def negate : Binary64 → Binary64
  | finite negative significand exponent => finite (!negative) significand exponent
  | infinite negative => infinite (!negative)
  | nan => nan

def isZero : Binary64 → Bool
  | finite _ significand _ => significand = 0
  | _ => false

def isFinite : Binary64 → Bool
  | finite _ _ _ => true
  | _ => false

/-- The exponent of the first digit of a positive ratio. -/
def leadingPlace (numerator denominator : Nat) : Int :=
  if denominator ≤ numerator then
    ((Nat.toDigits 10 (numerator / denominator)).length : Int) - 1
  else -((Nat.toDigits 10 (denominator / numerator)).length : Int)

/-- The decimals of as many digits as given that lie next to a ratio, the nearer
first. -/
def neighbours (numerator denominator count : Nat) : List (Nat × Int) :=
  let place := leadingPlace numerator denominator - count + 1
  let numerator := if place < 0 then numerator * Nat.pow 10 place.natAbs else numerator
  let denominator :=
    if place < 0 then denominator else denominator * Nat.pow 10 place.natAbs
  let below := numerator / denominator
  let remainder := numerator % denominator
  let belowIsNearer :=
    2 * remainder < denominator || (2 * remainder == denominator && below % 2 == 0)
  if belowIsNearer then [(below, place), (below + 1, place)]
  else [(below + 1, place), (below, place)]

/-- Digits without trailing zeros, with the exponent that makes up for them. -/
def trimmed : Nat → Nat × Int → Nat × Int
  | 0, decimal => decimal
  | fuel + 1, (digits, place) =>
      if digits % 10 = 0 ∧ digits ≠ 0 then trimmed fuel (digits / 10, place + 1)
      else (digits, place)

/-- The shortest decimal that is nearest to this number among all numbers, and
of several such the one nearest to it. -/
def shortestDecimal (significand : Nat) (exponent : Int) : Nat × Int :=
  let (numerator, denominator) := ratio significand exponent
  let candidates := (List.range 17).flatMap fun shorter =>
    neighbours numerator denominator (shorter + 1)
  let denotes := fun decimal : Nat × Int =>
    ofDecimal false decimal.1 decimal.2 = finite false significand exponent
  trimmed 20 ((candidates.find? denotes).getD (0, 0))

def signText (negative : Bool) : String :=
  if negative then "-" else ""

def zeros (count : Nat) : String :=
  String.ofList (List.replicate count '0')

/-- Digits with a point after as many of them as given. -/
def pointed (digits : String) (whole : Nat) : String :=
  String.ofList (digits.toList.take whole) ++ "." ++
    String.ofList (digits.toList.drop whole)

/-- A decimal written out in full, with at least one digit after the point. -/
def positional (digits : String) (place : Int) : String :=
  let whole : Int := digits.length + place
  if 0 ≤ place then digits ++ zeros place.natAbs ++ ".0"
  else if 0 < whole then pointed digits whole.natAbs
  else "0." ++ zeros whole.natAbs ++ digits

/-- A decimal with one digit in front of the point and an exponent. -/
def exponential (digits : String) (place : Int) : String :=
  let first := if digits.length = 1 then digits else pointed digits 1
  first ++ "e" ++ toString ((digits.length : Int) + place - 1)

def layOut (writeDecimal : String → Int → String) : Binary64 → String
  | nan => "NaN"
  | infinite negative => signText negative ++ "inf"
  | finite negative significand exponent =>
      if significand = 0 then signText negative ++ "0.0"
      else
        let (digits, place) := shortestDecimal significand exponent
        signText negative ++ writeDecimal (toString digits) place

/-- The number written out in full, however large or small. -/
def plain : Binary64 → String :=
  layOut positional

/-- The number with an exponent when it is very large or very small. -/
def concise : Binary64 → String :=
  layOut fun digits place =>
    let whole : Int := digits.length + place
    if -5 < whole ∧ whole ≤ 16 then positional digits place
    else exponential digits place

end Binary64

end ErrorTaxonomy
