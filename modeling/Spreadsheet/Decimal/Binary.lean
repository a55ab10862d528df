namespace Spreadsheet

/-- A finite double as a sign, a mantissa and a power of two. -/
structure Dyadic where
  negative : Bool
  mantissa : Nat
  exponent : Int
deriving DecidableEq

namespace Dyadic

/-- The fields of a finite double: subnormal numbers share the least exponent, and normal ones
    have a hidden leading bit. -/
def ofFloat (x : Float) : Dyadic :=
  let bits := x.toBits.toNat
  let biased : Nat := bits / Nat.pow 2 52 % Nat.pow 2 11
  let fraction : Nat := bits % Nat.pow 2 52
  let negative := decide (Nat.pow 2 63 ≤ bits)
  if biased = 0 then ⟨negative, fraction, -1074⟩
  else ⟨negative, Nat.pow 2 52 + fraction, (biased : Int) - 1075⟩

/-- The magnitude as a fraction of natural numbers. -/
def numerator (d : Dyadic) : Nat := d.mantissa * Nat.pow 2 d.exponent.toNat

def denominator (d : Dyadic) : Nat := Nat.pow 2 (-d.exponent).toNat

/-- The numerator with the sign of the double. -/
def signedNumerator (d : Dyadic) : Int := if d.negative then -d.numerator else d.numerator

theorem denominator_pos (d : Dyadic) : 0 < d.denominator := Nat.two_pow_pos _

def isInteger (d : Dyadic) : Bool := d.numerator % d.denominator == 0

def isOddInteger (d : Dyadic) : Bool := d.isInteger && d.numerator / d.denominator % 2 == 1

/-- The integer part of the magnitude. -/
def floor (d : Dyadic) : Nat := d.numerator / d.denominator

end Dyadic

end Spreadsheet
