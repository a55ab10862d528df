import Spreadsheet.Decimal.Binary
import Spreadsheet.Decimal.Nearest
import Spreadsheet.Failure

namespace Spreadsheet

/-- A number in a calculation. Whole numbers are exact until they meet a double. -/
inductive Number where
  | whole (n : Int)
  | double (x : Float)
deriving DecidableEq

namespace Number

def withSign (negative : Bool) (x : Float) : Float := if negative then -x else x

/-- The double nearest to a number. No finite one is near to a whole number that is too large. -/
def toFloat : Number → Except Failure Float
  | whole n =>
    let size := Float.ofNat n.natAbs
    if size.isFinite then .ok (withSign (n < 0) size) else .error .wholeTooLarge
  | double x => .ok x

/-- Only numbers that a finite double is near to are results. -/
def checked : Number → Except Failure Number
  | whole n => (whole n).toFloat.map fun _ => whole n
  | double x => if x.isFinite then .ok (double x) else .error .overflow

/-- The double nearest to a number, if it is a finite one. -/
def toChecked (x : Number) : Except Failure Number :=
  x.toFloat.bind fun nearest => (double nearest).checked

def isZero : Number → Bool
  | whole n => n == 0
  | double x => x == 0.0

/-- A number taken exactly, if it is finite. -/
def toDyadic : Number → Dyadic
  | whole n => ⟨decide (n < 0), n.natAbs, 0⟩
  | double x => .ofFloat x

def negate : Number → Number
  | whole n => whole (-n)
  | double x => double (-x)

/-- How a whole number and a finite double compare, both taken exactly. -/
def compareWhole (n : Int) (x : Float) : Ordering :=
  let d := Dyadic.ofFloat x
  compare (n * d.denominator) d.signedNumerator

def compareDoubles (x y : Float) : Option Ordering :=
  if x < y then some .lt else if y < x then some .gt else if x == y then some .eq else none

/-- How two numbers compare. What is not a number compares with nothing. -/
def compare? : Number → Number → Option Ordering
  | whole m, whole n => some (compare m n)
  | whole n, double x => some (compareWhole n x)
  | double x, whole n => some (compareWhole n x).swap
  | double x, double y => compareDoubles x y

def less (l r : Number) : Bool := l.compare? r == some .lt

/-- An operation that is exact on whole numbers, and on other pairs works on the nearest doubles. -/
def combine (wholes : Int → Int → Int) (doubles : Float → Float → Float) :
    Number → Number → Except Failure Number
  | whole m, whole n => .ok (whole (wholes m n))
  | l, r => l.toFloat.bind fun x => r.toFloat.map fun y => double (doubles x y)

def add : Number → Number → Except Failure Number := combine (· + ·) (· + ·)

def subtract : Number → Number → Except Failure Number := combine (· - ·) (· - ·)

def multiply : Number → Number → Except Failure Number := combine (· * ·) (· * ·)

/-- The double nearest to a quotient of whole numbers. A zero has the sign of the divisor. -/
def quotient (m n : Int) : Except Failure Float :=
  let size := Nearest.ofFraction m.natAbs n.natAbs
  if size.isFinite then .ok (withSign (decide (m < 0) != decide (n < 0)) size)
  else .error .quotientTooLarge

/-- A quotient by a number that is not zero. -/
def divide : Number → Number → Except Failure Number
  | whole m, whole n => (quotient m n).map double
  | l, r => l.toFloat.bind fun x => r.toFloat.map fun y => double (x / y)

def percent : Number → Except Failure Number
  | whole n => (quotient n 100).map double
  | double x => .ok (double (x / 100.0))

end Number

end Spreadsheet
