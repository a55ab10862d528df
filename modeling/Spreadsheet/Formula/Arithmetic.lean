import Spreadsheet.Formula.Expr
import Spreadsheet.Number

namespace Spreadsheet.Arithmetic

def truth (b : Bool) : Number := .double (if b then 1.0 else 0.0)

def divide (l r : Number) : Except Failure Number :=
  if r.isZero then .error .divisionByZero else l.divide r

/-- The power of a negative base with an integral exponent has the sign that the parity of the
    exponent gives it. -/
def signedPower (base exponent : Float) : Float :=
  let size := if base == -1.0 then 1.0 else (-base).pow exponent
  if (Dyadic.ofFloat exponent).isOddInteger then -size else size

/-- A zero as base keeps its sign when the exponent is an odd integer. -/
def zeroPower (base exponent : Float) : Float :=
  if (Dyadic.ofFloat exponent).isOddInteger then base else 0.0

def finitePower (x : Float) : Except Failure Float :=
  if x.isInf then .error .overflow else .ok x

/-- A power of finite doubles. A negative base with a fractional exponent has no real power, which
    is reported unless the power of its size is out of range. -/
def doublePower (base exponent : Float) : Except Failure Float :=
  if exponent == 0.0 then .ok 1.0
  else if base == 0.0 then
    if exponent < 0.0 then .error .zeroToNegativePower else .ok (zeroPower base exponent)
  else if base < 0.0 then
    if (Dyadic.ofFloat exponent).isInteger then finitePower (signedPower base exponent)
    else (finitePower ((-base).pow exponent)).bind fun _ => .error .notReal
  else if base == 1.0 then .ok 1.0
  else finitePower (base.pow exponent)

/-- A power of whole numbers. From the 1024th on every power is too large but those of zero, one and
    minus one, which depend on the parity of the exponent alone. -/
def wholePower (base : Int) (exponent : Nat) : Except Failure Int :=
  if exponent < 1024 then .ok (Int.pow base exponent)
  else if base.natAbs ≤ 1 then .ok (Int.pow base (2 - exponent % 2))
  else .error .wholeTooLarge

def power : Number → Number → Except Failure Number
  | .whole base, .whole (.ofNat exponent) => (wholePower base exponent).map .whole
  | l, r => l.toFloat.bind fun x => r.toFloat.bind fun y => (doublePower x y).map .double

end Spreadsheet.Arithmetic

namespace Spreadsheet

namespace BinaryOp

open Arithmetic

def apply (op : BinaryOp) (l r : Number) : Except Failure Number :=
  match op with
  | add => l.add r
  | subtract => l.subtract r
  | multiply => l.multiply r
  | divide => Arithmetic.divide l r
  | power => Arithmetic.power l r
  | equal => .ok (truth (l.compare? r == some .eq))
  | notEqual => .ok (truth (l.compare? r != some .eq))
  | less => .ok (truth (l.less r))
  | greater => .ok (truth (r.less l))
  | lessEqual => .ok (truth ((l.compare? r).any Ordering.isLE))
  | greaterEqual => .ok (truth ((l.compare? r).any Ordering.isGE))
  | other symbol => .error (.unknownOperator symbol)

end BinaryOp

/-- A sign before a number. -/
def Sign.apply : Sign → Number → Number
  | minus, x => x.negate
  | _, x => x

end Spreadsheet
