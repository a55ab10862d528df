import Spreadsheet.Formula.Expr

namespace Spreadsheet

/-- The levels of binary operators, the loosest first. Operators of one level associate to the
    left. -/
inductive Level where
  | comparison
  | sum
  | product
  | power
deriving DecidableEq

/-- The phrases of formulas. An operation has operators of its level between its operands, a signed
    operand may have signs in front of it, and a percent phrase percent signs behind it. A word is a
    reference or a call. -/
inductive Phrase where
  | formula
  | operation (level : Level)
  | signed
  | percent
  | primary
  | word
deriving DecidableEq

namespace Level

def binaryOp? : Level → Operator → Option BinaryOp
  | comparison, .equal => some .equal
  | comparison, .notEqual => some .notEqual
  | comparison, .less => some .less
  | comparison, .greater => some .greater
  | comparison, .lessEqual => some .lessEqual
  | comparison, .greaterEqual => some .greaterEqual
  | sum, .plus => some .add
  | sum, .minus => some .subtract
  | product, .times => some .multiply
  | product, .divide => some .divide
  | power, .power => some .power
  | _, _ => none

/-- The operator that a token stands for between two operands of a level. -/
def opOfToken? (level : Level) (t : Token) : Option BinaryOp :=
  match t.kind with
  | .operator op => level.binaryOp? op
  | _ => none

/-- The phrase of an operand: an operation of the next level, or a signed operand. -/
def operand : Level → Phrase
  | comparison => .operation sum
  | sum => .operation product
  | product => .operation power
  | power => .signed

/-- A bound on how many phrases start where an operation of a level starts. -/
def rank : Level → Nat
  | comparison => 10
  | sum => 8
  | product => 6
  | power => 4

theorem rank_le (level : Level) : level.rank ≤ 10 := by
  cases level <;> decide

end Level

/-- The sign that a token stands for before an operand. -/
def Sign.ofToken? (t : Token) : Option Sign :=
  match t.kind with
  | .operator .plus => some .plus
  | .operator .minus => some .minus
  | _ => none

end Spreadsheet
