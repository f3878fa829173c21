import BinaryStrings.Decimal.Binary64

/-!
# Shortest decimals

The text of a binary64 number has the fewest decimal digits that read back as the same number, and
of the decimals with that many digits the nearest one.  The numbers that read back form an interval
around the value, ends included when the mantissa is even.  For one, two, ... digits the two decimal
grid points next to the value are tried: if any grid point lies in the interval, one of these does.
-/

namespace BinaryStrings.Binary64

/-- `a / b ≤ c / d` for positive denominators, strictly if asked. -/
def ratioBelow (strict : Bool) (a b c d : Nat) : Bool :=
  if strict then a * d < c * b else a * d ≤ c * b

/-- `digits · 10 ^ power` as a quotient of natural numbers. -/
def decimalRatio (digits : Nat) (power : Int) : Nat × Nat :=
  if 0 ≤ power then (digits * Nat.pow 10 power.toNat, 1)
  else (digits, Nat.pow 10 (-power).toNat)

/-- Whether a decimal reads back as the finite number with this mantissa and exponent. -/
def readsBack (mantissa : Nat) (exponent : Int) (digits : Nat) (power : Int) : Bool :=
  let strict := mantissa % 2 == 1
  let lowerGap := if mantissa = Nat.pow 2 52 ∧ leastExponent < exponent then 1 else 2
  let (low, den) := magnitude (4 * mantissa - lowerGap) (exponent - 2)
  let (high, den') := magnitude (4 * mantissa + 2) (exponent - 2)
  let (num, unit) := decimalRatio digits power
  ratioBelow strict low den num unit && ratioBelow strict num unit high den'

/-- The power of ten of the first decimal digit of a positive quotient. -/
def leadingPower (num den : Nat) : Int :=
  let guess : Int := ((num.log2 : Int) - den.log2) * 30103 / 100000
  let fits (power : Int) : Bool :=
    let (n, d) := decimalRatio 1 power
    ratioBelow false n d num den
  match [guess + 2, guess + 1, guess, guess - 1].find? fits with
  | some power => power
  | none => guess - 2

/-- The nearer of the two grid points next to the value that reads back, if one does. -/
def onGrid? (mantissa : Nat) (exponent : Int) (power : Int) : Option Nat :=
  let (num, den) := magnitude mantissa exponent
  let (n, d) :=
    if 0 ≤ power then (num, den * Nat.pow 10 power.toNat)
    else (num * Nat.pow 10 (-power).toNat, den)
  let below := n / d
  let nearest := roundHalfEven n d
  let other := if nearest = below then below + 1 else below
  if readsBack mantissa exponent nearest power then some nearest
  else if readsBack mantissa exponent other power then some other
  else none

/-- Tries ever finer grids, `tries` of them, from the power of the leading digit downwards. -/
def refine (mantissa : Nat) (exponent : Int) : (tries : Nat) → (power : Int) → Nat × Int
  | 0, power => (0, power)
  | tries + 1, power =>
    match onGrid? mantissa exponent power with
    | some digits => (digits, power)
    | none => refine mantissa exponent tries (power - 1)

/-- The shortest decimal `digits · 10 ^ power` of a positive finite number. -/
def shortest (mantissa : Nat) (exponent : Int) : Nat × Int :=
  let (num, den) := magnitude mantissa exponent
  refine mantissa exponent 18 (leadingPower num den)

/-! ## Layout -/

/-- Where a decimal is written positionally and how an exponent looks. -/
structure Layout where
  /-- Written positionally when the power of the leading digit is at least this, ... -/
  leastPositional : Int
  /-- ... and below this. -/
  endPositional : Int
  /-- Digits of an exponent, at least. -/
  exponentWidth : Nat
  infinity : String
  notANumber : String

/-- Numbers are positional from 0.0001 on and below 10 to the 16th; exponents have two digits. -/
def layout : Layout := ⟨-4, 16, 2, "inf", "nan"⟩

/-- Numbers in JSON text have the same layout, and names for those that are not finite. -/
def jsonLayout : Layout := ⟨-4, 16, 2, "Infinity", "NaN"⟩

/-- Drops the zeros at the end of a decimal's digits, raising its power. -/
def dropZeros : (tries : Nat) → Nat → Int → Nat × Int
  | 0, digits, power => (digits, power)
  | tries + 1, digits, power =>
    if digits ≠ 0 ∧ digits % 10 = 0 then dropZeros tries (digits / 10) (power + 1)
    else (digits, power)

/-- Writes `digits · 10 ^ power` with a point, or with an exponent when it is far from one. -/
def writeDecimal (style : Layout) (digits : Nat) (power : Int) : String :=
  let (digits, power) := dropZeros 20 digits power
  let shown := toString digits
  let size := shown.length
  let leading : Int := power + size - 1
  if style.leastPositional ≤ leading ∧ leading < style.endPositional then
    if 0 ≤ power then shown ++ String.ofList (List.replicate power.toNat '0') ++ ".0"
    else if 0 ≤ leading then
      String.ofList (shown.toList.take (leading.toNat + 1)) ++ "." ++
        String.ofList (shown.toList.drop (leading.toNat + 1))
    else "0." ++ String.ofList (List.replicate (-leading - 1).toNat '0') ++ shown
  else
    let fraction := shown.toList.drop 1
    let mantissa := String.ofList (shown.toList.take 1) ++
      (if fraction.isEmpty then "" else "." ++ String.ofList fraction)
    let exponent := toString leading.natAbs
    mantissa ++ "e" ++ (if leading < 0 then "-" else "+") ++
      String.ofList (List.replicate (style.exponentWidth - exponent.length) '0') ++ exponent

/-- The text of a number. -/
def write (style : Layout) : Binary64 → String
  | .finite negative mantissa exponent =>
    let sign := if negative then "-" else ""
    if mantissa = 0 then sign ++ "0.0"
    else
      let (digits, power) := shortest mantissa exponent
      sign ++ writeDecimal style digits power
  | .infinite negative => (if negative then "-" else "") ++ style.infinity
  | .nan => style.notANumber

end BinaryStrings.Binary64
