/-!
# Decimal numerals

The decimal text of integers, and the reading of such text as a 64-bit integer.

Main definitions:

- `Numeral.ofNat`, `Numeral.ofInt`: the digits of a number, without leading
  zeros, after a minus sign where one is needed.
- `Numeral.toInt64?`: the number that a text denotes, if it is written with
  ASCII digits after at most one sign and fits.
-/

namespace LoopLang

namespace Numeral

/-- The decimal digits of a natural number. -/
def ofNat (n : Nat) : String :=
  String.ofList (Nat.toDigits 10 n)

/-- The decimal text of an integer. -/
def ofInt : Int → String
  | .ofNat n => ofNat n
  | .negSucc n => String.ofList ('-' :: Nat.toDigits 10 (n + 1))

/-- The number written by one or more ASCII digits. -/
def magnitude? (digits : List Char) : Option Nat :=
  if !digits.isEmpty && digits.all Char.isDigit then some (Nat.ofDigitChars 10 digits 0)
  else none

/-- The integer written by digits after at most one sign. -/
def toInt? : List Char → Option Int
  | '+' :: digits => (magnitude? digits).map Int.ofNat
  | '-' :: digits => (magnitude? digits).map fun n => -Int.ofNat n
  | digits => (magnitude? digits).map Int.ofNat

/-- Whether an integer is one of the values of a signed 64-bit word. -/
def fitsInt64 (i : Int) : Bool :=
  Int64.minValue.toInt ≤ i && i ≤ Int64.maxValue.toInt

/-- The 64-bit integer that a text denotes. -/
def toInt64? (text : List Char) : Option Int64 :=
  (toInt? text).bind fun i => if fitsInt64 i then some (Int64.ofInt i) else none

end Numeral

end LoopLang
