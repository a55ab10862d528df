import Spreadsheet.Text.Digit

namespace Spreadsheet

/-- A decimal number: a sign, a coefficient and a power of ten. -/
structure Numeral where
  negative : Bool
  coefficient : Nat
  exponent : Int
deriving DecidableEq

namespace Numeral

def digits (n : Nat) : List Char := Nat.toDigits 10 n

def digitCount (n : Nat) : Nat := (digits n).length

/-- The double nearest to a numeral. Magnitudes of at least ten to the 310th are infinite, and
    those below ten to the -330th are zero, whatever their digits. -/
def toFloat (n : Numeral) : Float :=
  let magnitude : Float :=
    if n.coefficient = 0 then 0.0
    else
      let length : Int := digitCount n.coefficient
      if 310 < length + n.exponent then Float.ofBits 0x7FF0000000000000
      else if length + n.exponent < -330 then 0.0
      else if n.exponent < 0 then Float.ofScientific n.coefficient true (-n.exponent).toNat
      else Float.ofScientific n.coefficient false n.exponent.toNat
  if n.negative then -magnitude else magnitude

/-- A sign in front of a text, if it has one. -/
def readSign : List Char → Bool × List Char
  | '+' :: rest => (false, rest)
  | '-' :: rest => (true, rest)
  | cs => (false, cs)

/-- The digits after a decimal point, if the text goes on with one. -/
def readFraction : List Char → Option (List Char) × List Char
  | '.' :: rest => (some (rest.takeWhile Text.isDecimalDigit), rest.dropWhile Text.isDecimalDigit)
  | cs => (none, cs)

/-- The exponent that ends a text: nothing, or a letter E, a sign and at least one digit. -/
def readExponent? : List Char → Option Int
  | [] => some 0
  | mark :: rest =>
    let (negative, ds) := readSign rest
    if (mark == 'e' || mark == 'E') && ! ds.isEmpty && ds.all Text.isDecimalDigit then
      let size : Int := Text.digitsValue ds
      some (if negative then -size else size)
    else none

/-- The numeral that a text writes: a sign or none, digits with or without a fraction or a fraction
    alone, and an exponent or none. The digits may be of any script. -/
def read? (cs : List Char) : Option Numeral :=
  let (negative, unsigned) := readSign cs
  let whole := unsigned.takeWhile Text.isDecimalDigit
  let (fraction?, rest) := readFraction (unsigned.dropWhile Text.isDecimalDigit)
  let fraction := fraction?.getD []
  if whole.isEmpty && fraction.isEmpty then none
  else
    (readExponent? rest).map fun exponent =>
      ⟨negative, Text.digitsValue (whole ++ fraction), exponent - fraction.length⟩

/-- The double that a numeral's text writes; other texts are not a number. -/
def floatOfText (text : String) : Float :=
  match read? text.toList with
  | some n => n.toFloat
  | none => 0.0 / 0.0

/-- Digits with a point `places` digits from the right. -/
def withPoint (ds : List Char) (places : Nat) : List Char :=
  let padded := ds.leftpad (places + 1) '0'
  padded.take (padded.length - places) ++ '.' :: padded.drop (padded.length - places)

/-- A coefficient of these digits times a power of ten, without an exponent mark. -/
def positional (ds : List Char) (exponent : Int) : List Char :=
  if 0 ≤ exponent then ds ++ List.replicate exponent.toNat '0'
  else withPoint ds (-exponent).toNat

/-- One digit before the point, and the others after it. -/
def mantissaText : List Char → List Char
  | [] => []
  | [d] => [d]
  | d :: ds => d :: '.' :: ds

def signText (negative : Bool) : List Char := if negative then ['-'] else []

/-- The exponent that puts the point after the first digit. -/
def adjusted (ds : List Char) (exponent : Int) : Int := ds.length - 1 + exponent

end Numeral

end Spreadsheet
