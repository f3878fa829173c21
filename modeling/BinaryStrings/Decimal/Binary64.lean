/-!
# Binary64 numbers

The numbers `± mantissa · 2 ^ exponent` of the 64-bit format, with the rounding that every exact
result goes through: to the nearest number of the format, and of two equally near ones to the one
with the even mantissa.
-/

namespace BinaryStrings

/-- The quotient rounded to the nearest whole number, halves to the even neighbour. -/
def roundHalfEven (num den : Nat) : Nat :=
  let quotient := num / den
  let twice := 2 * (num % den)
  if twice < den then quotient
  else if den < twice then quotient + 1
  else quotient + quotient % 2

/-- A number of the 64-bit binary format. -/
inductive Binary64 where
  /-- `± mantissa · 2 ^ exponent`. -/
  | finite (negative : Bool) (mantissa : Nat) (exponent : Int)
  | infinite (negative : Bool)
  | nan
  deriving DecidableEq, Repr

namespace Binary64

/-- Numbers of the format have at most this many bits in the mantissa. -/
def precision : Nat := 53

/-- The exponent of the smallest steps between numbers. -/
def leastExponent : Int := -1074

/-- The exponent of the largest steps between numbers. -/
def greatestExponent : Int := 971

/-- Zero with a sign. -/
def zero (negative : Bool) : Binary64 :=
  .finite negative 0 leastExponent

/-- `num / den / 2 ^ exponent` as a quotient of natural numbers. -/
def scaled (num den : Nat) (exponent : Int) : Nat × Nat :=
  if 0 ≤ exponent then (num, den * Nat.pow 2 exponent.toNat)
  else (num * Nat.pow 2 (-exponent).toNat, den)

/-- The exponent at which `num / den` has a mantissa of full length, or the least one. -/
def exponentOf (num den : Nat) : Int :=
  let guess : Int := (num.log2 : Int) - den.log2 - 52
  let (n, d) := scaled num den guess
  max leastExponent (if n / d < Nat.pow 2 52 then guess - 1 else guess)

/-- The number nearest to `± num / den`. -/
def ofRatio (negative : Bool) (num den : Nat) : Binary64 :=
  if num = 0 then zero negative
  else
    let exponent := exponentOf num den
    let (n, d) := scaled num den exponent
    let mantissa := roundHalfEven n d
    let (mantissa, exponent) :=
      if mantissa = Nat.pow 2 precision then (Nat.pow 2 52, exponent + 1) else (mantissa, exponent)
    if greatestExponent < exponent then .infinite negative
    else .finite negative mantissa exponent

/-- The number nearest to `± digits · 10 ^ power`.  Powers far outside the format are answered
without computing them. -/
def ofDecimal (negative : Bool) (digits : Nat) (power : Int) : Binary64 :=
  if digits = 0 then zero negative
  else
    let top := power + (digits.log2 : Int) / 4
    let bottom := power + (digits.log2 : Int) + 1
    if 400 < top then .infinite negative
    else if bottom < -400 then zero negative
    else if 0 ≤ power then ofRatio negative (digits * Nat.pow 10 power.toNat) 1
    else ofRatio negative digits (Nat.pow 10 (-power).toNat)

/-- The size of a finite number as a quotient of natural numbers. -/
def magnitude (mantissa : Nat) (exponent : Int) : Nat × Nat :=
  if 0 ≤ exponent then (mantissa * Nat.pow 2 exponent.toNat, 1)
  else (mantissa, Nat.pow 2 (-exponent).toNat)

/-- The product of the sizes of two finite numbers, rounded; zero for anything else. -/
def mulMagnitude : Binary64 → Binary64 → Binary64
  | .finite _ m q, .finite _ n r =>
    let (a, b) := magnitude m q
    let (c, d) := magnitude n r
    ofRatio false (a * c) (b * d)
  | _, _ => zero false

/-- The whole part of the size of a finite number; zero for anything else. -/
def floorMagnitude : Binary64 → Nat
  | .finite _ m q =>
    let (a, b) := magnitude m q
    a / b
  | _ => 0

end Binary64

end BinaryStrings
