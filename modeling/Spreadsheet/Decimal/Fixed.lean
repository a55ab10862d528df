import Spreadsheet.Decimal.Binary
import Spreadsheet.Decimal.Numeral

namespace Spreadsheet.Fixed

/-- The integer nearest to a fraction; a half goes up. -/
def roundHalfUp (numerator denominator : Nat) : Nat :=
  (2 * numerator + denominator) / (2 * denominator)

/-- The multiple of ten to the `-places`-th nearest to a double; a tie goes away from zero. -/
def rounded (d : Dyadic) (places : Int) : Numeral :=
  { negative := d.negative
    coefficient := roundHalfUp (d.numerator * Nat.pow 10 places.toNat)
      (d.denominator * Nat.pow 10 (-places).toNat)
    exponent := -places }

def exponentText (exponent : Int) : List Char :=
  (if exponent < 0 then '-' else '+') :: Numeral.digits exponent.natAbs

/-- A numeral with its trailing zeros: written out when its exponent is not positive and its first
    digit stands at most six places after the point, and with an exponent otherwise. -/
def layout (n : Numeral) : List Char :=
  let ds := Numeral.digits n.coefficient
  let leading := Numeral.adjusted ds n.exponent
  Numeral.signText n.negative ++
    if n.exponent ≤ 0 ∧ -6 ≤ leading then Numeral.positional ds n.exponent
    else Numeral.mantissaText ds ++ 'E' :: exponentText leading

/-- A text without a fraction of `places` zeros. -/
def trimFraction (places : Int) (cs : List Char) : List Char :=
  let ending := '.' :: List.replicate places.toNat '0'
  if 0 < places ∧ ending.isSuffixOf cs then cs.take (cs.length - ending.length) else cs

/-- No more decimal places than this are kept. -/
def finestPlaces : Int := 1000026

/-- The numeral that a double is shown as. -/
def shown (d : Dyadic) (places : Int) : Numeral := rounded d (min places finestPlaces)

/-- A double is shown as more than so many digits. -/
def exceeds (d : Dyadic) (places : Int) (digits : Nat) : Bool :=
  decide (Nat.pow 10 digits ≤ (shown d places).coefficient)

/-- The display text of a double: rounded to `places` decimal places, without an all-zero
    fraction and without the sign of a zero. -/
def text (d : Dyadic) (places : Int) : String :=
  let cs := trimFraction places (layout (shown d places))
  String.ofList (if cs = ['-', '0'] then ['0'] else cs)

end Spreadsheet.Fixed
