import Quorum.Word

/-! Numbers of double precision: the nearest one to a decimal number, and the shortest decimal
text of each.
-/

namespace Quorum

inductive Double where
  /-- The mantissa times a power of two. Mantissas below `2 ^ 52` have the lowest power only. -/
  | finite (negative : Bool) (mantissa : Nat) (power : Int)
  | infinite (negative : Bool)
  /-- No number. -/
  | undefined
  deriving DecidableEq

namespace Double

/-- The lowest power of two. -/
def lowest : Int :=
  -1074

/-- The highest power of two. -/
def highest : Int :=
  971

/-- A number times a power of a base, as a quotient. -/
def scaled (number base : Nat) (power : Int) : Nat × Nat :=
  (number * base ^ power.toNat, base ^ (-power).toNat)

/-- The nearest number to a quotient, of two the even one. -/
def roundedQuotient (dividend divisor : Nat) : Nat :=
  let quotient := dividend / divisor
  let twice := 2 * (dividend % divisor)
  if divisor < twice ∨ (twice = divisor ∧ quotient % 2 = 1) then quotient + 1 else quotient

/-- The nearest double to a quotient of positive numbers. -/
def ofQuotient (negative : Bool) (dividend divisor : Nat) : Double :=
  let length : Int := dividend.log2 - divisor.log2
  let (bound, scale) := scaled divisor 2 length
  let power := max lowest (if bound ≤ dividend * scale then length - 52 else length - 53)
  let (numerator, denominator) := scaled dividend 2 (-power)
  let mantissa := roundedQuotient numerator (denominator * divisor)
  let (mantissa, power) := if mantissa = 2 ^ 53 then (2 ^ 52, power + 1) else (mantissa, power)
  if highest < power then .infinite negative else .finite negative mantissa power

/-- The nearest double to a number times a power of ten. What is far beyond all doubles, or far
below, is told by bounds on the logarithm.
-/
def ofDecimal (negative : Bool) (number : Nat) (power : Int) : Double :=
  let length : Int := number.log2
  if number = 0 ∨ length + 3 * power < -1200 then .finite negative 0 lowest
  else if 4000 < 3 * length + 10 * power then .infinite negative
  else
    let (dividend, divisor) := scaled number 10 power
    ofQuotient negative dividend divisor

/-- So many digits decide how a number rounds, but for whether it is greater than they say: all
doubles and the middles between them have fewer.
-/
def decisive : Nat :=
  800

/-- The nearest double to the number that decimal digits write times a power of ten. -/
def ofDigits (negative : Bool) (digits : List Nat) (power : Int) : Double :=
  let (front, rest) := (digits.dropWhile (· = 0)).splitAt decisive
  let number := front.foldl (fun number digit => 10 * number + digit) 0
  if rest.all (· = 0) then ofDecimal negative number (power + rest.length)
  else ofDecimal negative (10 * number + 1) (power + rest.length - 1)

/-- The numbers that round to a double lie between these, in quarters of its last place. They
themselves do if the mantissa is even.
-/
def bounds (mantissa : Nat) (power : Int) : Nat × Nat :=
  (4 * mantissa - (if mantissa = 2 ^ 52 ∧ lowest < power then 1 else 2), 4 * mantissa + 2)

/-- The multiple of a power of ten that rounds to a positive double, if there is one: the nearest,
and of two the greater one.
-/
def multiple? (mantissa : Nat) (power place : Int) : Option Nat :=
  let (low, high) := bounds mantissa power
  let (places, quarters) := (scaled 1 10 place, scaled 1 2 (power - 2))
  let unit := places.1 * quarters.2
  let quarter := places.2 * quarters.1
  let rounds (number : Nat) : Bool :=
    if mantissa % 2 = 0 then low * quarter ≤ number * unit ∧ number * unit ≤ high * quarter
    else low * quarter < number * unit ∧ number * unit < high * quarter
  let value := 4 * mantissa * quarter
  let below := value / unit
  if rounds below ∧ (2 * value < (2 * below + 1) * unit ∨ ¬ rounds (below + 1)) then some below
  else if rounds (below + 1) then some (below + 1)
  else none

/-- The shortest number that rounds to a positive double, with its power of ten. -/
def shortest (mantissa : Nat) (power : Int) : Nat × Int :=
  let places := (List.range 640).map fun (index : Nat) => (310 - index : Int)
  let found := places.findSome? fun place =>
    (multiple? mantissa power place).map fun number => (number, place)
  found.getD (0, 0)

/-- A number times a power of ten, with a digit at least on both sides of the point. -/
def positional (number : Nat) (power : Int) : String :=
  let digits := toString (number * 10 ^ power.toNat)
  let places := (-power).toNat
  if places = 0 then digits ++ ".0"
  else
    let digits := List.replicate (places + 1 - digits.length) '0' ++ digits.toList
    let whole := digits.length - places
    String.ofList (digits.take whole) ++ "." ++ String.ofList (digits.drop whole)

def text : Double → String
  | .finite negative mantissa power =>
      let (number, place) := if mantissa = 0 then (0, 0) else shortest mantissa power
      (if negative then "-" else "") ++ positional number place
  | .infinite negative => (if negative then "-" else "") ++ "inf"
  | .undefined => "NaN"

end Double

end Quorum
