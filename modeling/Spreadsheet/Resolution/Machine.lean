import Spreadsheet.Cell.Index
import Spreadsheet.Cell.Literal
import Spreadsheet.Formula.Parse
import Spreadsheet.Resolution.CallStack

namespace Spreadsheet

/-- The values of the cells that have been resolved. -/
abbrev Memo := List (Coordinate × Number)

namespace Memo

def get? (memo : Memo) (c : Coordinate) : Option Number := List.lookup c memo

/-- The value of a reference, which must have been resolved. -/
def value (memo : Memo) (a : Address) : Except Failure Number :=
  match memo.get? a.coordinate with
  | some x => .ok x
  | none => .error (.unresolved a)

end Memo

/-- A formula in progress: its expression, and the references that are still to be visited. -/
structure Task where
  body : Expr
  pending : List Address

def Task.ofExpr (e : Expr) : Task := ⟨e, e.cells⟩

def Task.value (t : Task) (memo : Memo) : Except Failure Number := (t.body.eval memo.value).outcome

/-- The cells that formulas refer to, and how many formulas may be nested. -/
structure Setting where
  index : CellIndex
  maxDepth : Option Int

/-- The limit, if it is below a number of formulas in progress. -/
def Setting.exceeded? (s : Setting) (depth : Nat) : Option Int :=
  match s.maxDepth with
  | none => none
  | some limit => if limit < depth then some limit else none

/-- A resolution in progress: the formula asked for, the formula cells nested in it, the innermost
    one first, and what has been resolved so far. -/
structure Machine where
  root : Task
  nested : List (Address × Task)
  stack : CallStack
  memo : Memo
  notes : List Note

/-- What one step leads to: a further state, or an outcome and the last state. -/
inductive Machine.Step where
  | next (m : Machine)
  | done (outcome : Except Failure Number) (m : Machine)

namespace Machine

/-- Remembers the value of a cell that is no formula. -/
def settle (m : Machine) (a : Address) (x : Number) (notes : List Note) : Machine :=
  { m with memo := (a.coordinate, x) :: m.memo, notes := m.notes ++ notes }

/-- Begins the formula of a cell. -/
def enter (m : Machine) (a : Address) (e : Expr) : Machine :=
  { m with nested := (a, Task.ofExpr e) :: m.nested, stack := m.stack.push a }

/-- How many formulas are in progress. -/
def depth (m : Machine) : Nat := m.nested.length + 1

/-- Visits a cell that is neither resolved nor on the stack. -/
def visitNew (s : Setting) (a : Address) (m : Machine) : Step :=
  match s.index.get? a.coordinate with
  | none => .next (m.settle a (.double 0.0) [.emptyCell a.coordinate])
  | some content =>
    match content.body? with
    | none =>
      let literal := Literal.value (content.value.getD "")
      .next (m.settle a (.double literal.1) literal.2)
    | some body =>
      match s.exceeded? m.depth with
      | some limit => .done (.error (.naming limit (.tooDeep limit a.coordinate))) m
      | none =>
        match Expr.parse body with
        | .error e => .done (.error e) m
        | .ok e => .next (m.enter a e)

/-- Visits a referenced cell. One that is on the stack closes a cycle. -/
def visit (s : Setting) (a : Address) (m : Machine) : Step :=
  if (m.memo.get? a.coordinate).isSome then .next m
  else if m.stack.contains a then
    match m.stack.cyclePath a with
    | .error e => .done (.error e) m
    | .ok cycle => .done (.error (.circular cycle)) m
  else visitNew s a m

/-- Ends the innermost formula, whose references all have values. -/
def leave (a : Address) (t : Task) (outer : List (Address × Task)) (m : Machine) : Step :=
  match t.value m.memo with
  | .error e => .done (.error e) m
  | .ok x =>
    match m.stack.pop with
    | .error e => .done (.error e) m
    | .ok stack => .next { m with nested := outer, stack, memo := (a.coordinate, x) :: m.memo }

/-- Visits the next reference of the innermost formula, or evaluates it. -/
def step (s : Setting) (m : Machine) : Step :=
  match m.nested with
  | [] =>
    match m.root.pending with
    | [] => .done (m.root.value m.memo) m
    | a :: pending => visit s a { m with root := { m.root with pending } }
  | (b, t) :: outer =>
    match t.pending with
    | [] => leave b t outer m
    | a :: pending => visit s a { m with nested := (b, { t with pending }) :: outer }

end Machine

end Spreadsheet
