import Spreadsheet.Decimal.Binary
import Spreadsheet.Decimal.Numeral

namespace Spreadsheet.Shortest

/-- A positive double over a common denominator, between the two ends of the interval of numbers
    that are read as it. -/
structure Interval where
  low : Nat
  value : Nat
  high : Nat
  denominator : Nat
  closed : Bool

/-- The ends lie halfway to the neighbours; the lower neighbour of a power of two is nearer. An end
    is read as the double with the even mantissa. -/
def Interval.ofDyadic (d : Dyadic) : Interval :=
  let scale := Nat.pow 2 (d.exponent - 2).toNat
  let below := if d.mantissa = Nat.pow 2 52 && decide (-1074 < d.exponent) then 1 else 2
  { low := (4 * d.mantissa - below) * scale
    value := 4 * d.mantissa * scale
    high := (4 * d.mantissa + 2) * scale
    denominator := Nat.pow 2 (2 - d.exponent).toNat
    closed := d.mantissa % 2 == 0 }

/-- The interval with ten to the `exponent`-th as its unit. -/
def Interval.inUnits (i : Interval) (exponent : Int) : Interval :=
  let up := Nat.pow 10 (-exponent).toNat
  { low := i.low * up
    value := i.value * up
    high := i.high * up
    denominator := i.denominator * Nat.pow 10 exponent.toNat
    closed := i.closed }

def Interval.contains (i : Interval) (n : Nat) : Bool :=
  let scaled := n * i.denominator
  if i.closed then i.low ≤ scaled && scaled ≤ i.high else i.low < scaled && scaled < i.high

/-- The integer of the interval nearest to its value, if it holds one; of two as near, the even
    one. -/
def Interval.nearest? (i : Interval) : Option Nat :=
  let down := i.value / i.denominator
  let up := down + 1
  match i.contains down, i.contains up with
  | false, false => none
  | true, false => some down
  | false, true => some up
  | true, true =>
    let twice := 2 * i.value
    let middle := (down + up) * i.denominator
    if twice < middle || (twice == middle && down % 2 == 0) then some down else some up

/-- The power of ten of the first digit of `value / denominator`. -/
def leadingExponent (value denominator : Nat) : Int :=
  Numeral.digitCount (value * Nat.pow 10 400 / denominator) - 401

/-- The coarsest decimal grid with a point in the interval, tried from `count` digits upwards. -/
def search (i : Interval) (leading : Int) : Nat → Nat → Nat × Int
  | _, 0 => (0, 0)
  | count, fuel + 1 =>
    let exponent := leading + 1 - count
    match (i.inUnits exponent).nearest? with
    | some n => (n, exponent)
    | none => search i leading (count + 1) fuel

/-- The fewest digits that are read as a finite double, with their power of ten. Seventeen digits
    always suffice. -/
def numeral (d : Dyadic) : Numeral :=
  if d.mantissa = 0 then ⟨d.negative, 0, 0⟩
  else
    let i := Interval.ofDyadic d
    let (coefficient, exponent) := search i (leadingExponent i.value i.denominator) 1 17
    ⟨d.negative, coefficient, exponent⟩

/-- Digits without the zeros at their end, which the power of ten takes up. -/
def trimmed (n : Numeral) : List Char × Int :=
  let ds := Numeral.digits n.coefficient
  let kept := (ds.reverse.dropWhile (· == '0')).reverse
  if kept.isEmpty then (ds, 0) else (kept, n.exponent + (ds.length - kept.length))

def exponentText (exponent : Int) : List Char :=
  (if exponent < 0 then '-' else '+') :: (Numeral.digits exponent.natAbs).leftpad 2 '0'

/-- Numbers from ten to the -4th up to ten to the 16th are written out, with a point; others have
    an exponent of at least two digits. -/
def layout (n : Numeral) : List Char :=
  let (ds, exponent) := trimmed n
  let leading := Numeral.adjusted ds exponent
  Numeral.signText n.negative ++
    if -4 ≤ leading ∧ leading < 16 then
      if 0 ≤ exponent then Numeral.positional ds exponent ++ ['.', '0']
      else Numeral.positional ds exponent
    else Numeral.mantissaText ds ++ 'e' :: exponentText leading

/-- The text of a double: the fewest digits that read back. -/
def text (x : Float) : String :=
  if x.isNaN then "nan"
  else if x.isInf then (if x < 0.0 then "-inf" else "inf")
  else String.ofList (layout (numeral (Dyadic.ofFloat x)))

end Spreadsheet.Shortest
