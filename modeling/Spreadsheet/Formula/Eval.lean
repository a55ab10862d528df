import Spreadsheet.Formula.Arithmetic
import Spreadsheet.Formula.Function

namespace Spreadsheet

/-- An outcome, and the references that were read for it in order. -/
structure Reading (α : Type) where
  outcome : Except Failure α
  reads : List Address

namespace Reading

def ofOutcome {α : Type} (outcome : Except Failure α) : Reading α := ⟨outcome, []⟩

def andThen {α β : Type} (r : Reading α) (f : α → Reading β) : Reading β :=
  match r.outcome with
  | .error e => ⟨.error e, r.reads⟩
  | .ok x => ⟨(f x).outcome, r.reads ++ (f x).reads⟩

end Reading

namespace Expr

mutual

/-- The value of an expression, given the values of the cells, which count as doubles. Operands are
    evaluated from left to right, and the first failure is the outcome. -/
def eval (value : Address → Except Failure Number) : Expr → Reading Number
  | const x => .ofOutcome (Number.double x).checked
  | ref r => ⟨(value r.address).bind Number.toChecked, [r.address]⟩
  | percent e => (e.eval value).andThen fun x => .ofOutcome x.percent
  | unary s e => (e.eval value).andThen fun x => .ofOutcome (.ok (s.apply x))
  | binary op l r =>
    (l.eval value).andThen fun x => (r.eval value).andThen fun y =>
      .ofOutcome ((op.apply x y).bind Number.checked)
  | call name es =>
    match Function.named? name with
    | none => .ofOutcome (.error (.unregisteredName name))
    | some (.aggregate a) =>
      (evalAll value es).andThen fun xs => .ofOutcome ((a.apply xs).bind Number.checked)
    | some .conditional => (evalChosen value es).andThen fun x => .ofOutcome x.checked

def evalAll (value : Address → Except Failure Number) : List Expr → Reading (List Number)
  | [] => .ofOutcome (.ok [])
  | e :: es =>
    (e.eval value).andThen fun x =>
      (evalAll value es).andThen fun xs => .ofOutcome (.ok (x :: xs))

/-- The number that a condition selects: the first one if the condition is not zero, and else the
    second one, or zero if there is none. -/
def evalChosen (value : Address → Except Failure Number) : List Expr → Reading Number
  | [c, yes] =>
    (c.eval value).andThen fun x =>
      if x.isZero then .ofOutcome (.ok (.double 0.0)) else yes.eval value
  | [c, yes, no] =>
    (c.eval value).andThen fun x => if x.isZero then no.eval value else yes.eval value
  | es => .ofOutcome (.error (.choiceCount es.length))

end

end Expr

end Spreadsheet
