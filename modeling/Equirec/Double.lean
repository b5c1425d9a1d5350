/-!
# Double-precision numbers

The value of a number literal is an IEEE 754 double, held as its bit pattern so that two values
are the same exactly when their bits are. `Double.ofText?` reads the text of a literal: an optional
sign, then one of the words for infinity and not-a-number in any case, or decimal digits with an
optional point and an optional exponent. Digits are rounded to the nearest double, ties to even.
-/
namespace Equirec

/-- A double, by its bit pattern. -/
structure Double where
  /-- Sign, exponent and fraction, from the most significant bit down. -/
  bits : UInt64
  deriving DecidableEq, Inhabited

/-- A decimal number without sign: an integer times a power of ten. -/
structure Decimal where
  /-- The digits read as one integer. -/
  coefficient : Nat
  /-- The power of ten. -/
  exponent : Int
  deriving DecidableEq

namespace Decimal

/-- The value of a run of decimal digits. -/
def digitsValue (digits : List Char) : Nat :=
  digits.foldl (fun value digit => 10 * value + (digit.toNat - '0'.toNat)) 0

/-- A sign in front of a text, if there is one: whether it is a minus, and what follows. -/
def splitSign : List Char → Bool × List Char
  | '-' :: rest => (true, rest)
  | '+' :: rest => (false, rest)
  | text => (false, text)

/-- The exponent part: nothing, or a mark, an optional sign and at least one digit. -/
def readExponent? : List Char → Option Int
  | [] => some 0
  | mark :: rest =>
    let (negative, digits) := splitSign rest
    if (mark == 'e' || mark == 'E') && digits != [] && digits.all Char.isDigit then
      some (if negative then -(digitsValue digits : Int) else digitsValue digits)
    else none

/-- Digits around an optional point, at least one of them, and an exponent part. -/
def read? (text : List Char) : Option Decimal := do
  let whole := text.takeWhile Char.isDigit
  let (fraction, rest) :=
    match text.dropWhile Char.isDigit with
    | '.' :: rest => (rest.takeWhile Char.isDigit, rest.dropWhile Char.isDigit)
    | rest => ([], rest)
  let exponent ← readExponent? rest
  if whole == [] && fraction == [] then none
  else some ⟨digitsValue (whole ++ fraction), exponent - fraction.length⟩

end Decimal

namespace Double

/-- Positive zero. -/
def zero : Double := ⟨0⟩

/-- Positive infinity. -/
def infinity : Double := ⟨0x7FF0000000000000⟩

/-- The quiet not-a-number without a sign. -/
def nan : Double := ⟨0x7FF8000000000000⟩

/-- The same value with its sign bit set. -/
def negate (value : Double) : Double := ⟨value.bits ||| 0x8000000000000000⟩

/-- The double nearest to a decimal. A value of 10³¹⁰ or more is far above the greatest double and
one below 10⁻³³⁰ far under half of the least, so neither needs its power of ten computed. -/
def ofDecimal (decimal : Decimal) : Double :=
  let scale : Int := (Nat.toDigits 10 decimal.coefficient).length + decimal.exponent
  if decimal.coefficient == 0 || scale < -330 then zero
  else if 310 < scale then infinity
  else ⟨(Float.ofScientific decimal.coefficient (decimal.exponent < 0)
    decimal.exponent.natAbs).toBits⟩

/-- The value of a literal's text without its sign. -/
def ofUnsigned? (text : List Char) : Option Double :=
  let word := String.ofList (text.map Char.toLower)
  if word == "inf" || word == "infinity" then some infinity
  else if word == "nan" then some nan
  else (Decimal.read? text).map ofDecimal

/-- The value of a literal's text, or nothing when the text is no number. -/
def ofText? (text : String) : Option Double :=
  let (negative, rest) := Decimal.splitSign text.toList
  (ofUnsigned? rest).map fun value => if negative then value.negate else value

end Double

end Equirec
