/-!
# Hexadecimal numbers

Lower-case hexadecimal texts of numbers, padded where a format asks for it.
-/

namespace BinaryStrings.Text

/-- The lower-case hexadecimal digits of a number. -/
def hexDigits (n : Nat) : List Char :=
  Nat.toDigits 16 n

/-- A text filled up with zeros on the left. -/
def zeroPadded (width : Nat) (text : List Char) : List Char :=
  List.replicate (width - text.length) '0' ++ text

/-- The hexadecimal digits of a number, filled up with zeros. -/
def hexPadded (width n : Nat) : List Char :=
  zeroPadded width (hexDigits n)

/-- A number with the `0x` mark, and a minus sign in front of it below zero. -/
def hexNumber (n : Int) : String :=
  (if n < 0 then "-0x" else "0x") ++ String.ofList (hexDigits n.natAbs)

/-- A number in `width` columns: the sign first, zeros, then the hexadecimal digits. -/
def hexColumns (width : Nat) (n : Int) : String :=
  if n < 0 then "-" ++ String.ofList (hexPadded (width - 1) n.natAbs)
  else String.ofList (hexPadded width n.natAbs)

end BinaryStrings.Text
