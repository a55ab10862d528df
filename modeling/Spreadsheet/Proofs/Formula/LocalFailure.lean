import Spreadsheet.Formula.Parse
import Spreadsheet.Proofs.Failure

namespace Spreadsheet

def FailsLocally {α : Type} (x : Except Failure α) : Prop := ∀ f, x = .error f → f.IsLocal

namespace FailsLocally

variable {α β : Type} {x : Except Failure α}

theorem ok (x : α) : FailsLocally (.ok x : Except Failure α) := Fails.ok x

theorem error {f : Failure} (h : f.IsLocal) : FailsLocally (.error f : Except Failure α) :=
  Fails.error h

theorem ne_circular (h : FailsLocally x) (cycle : List Coordinate) :
    x ≠ .error (.circular cycle) := by
  intro same
  exact Failure.not_isLocal_circular cycle (h _ same)

theorem keepsFinite (h : FailsLocally x) : Fails Failure.KeepsFinite x :=
  Fails.mono h fun _ => Failure.IsLocal.keepsFinite

theorem bind {g : α → Except Failure β} (first : FailsLocally x)
    (next : ∀ a, FailsLocally (g a)) : FailsLocally (x.bind g) := Fails.bind first next

theorem map (first : FailsLocally x) (g : α → β) : FailsLocally (x.map g) := Fails.map first g

end FailsLocally

namespace Number

theorem toFloat_failsLocally (x : Number) : FailsLocally x.toFloat := by
  cases x with
  | whole n =>
    simp only [toFloat]
    split
    · exact .ok _
    · exact .error trivial
  | double x => exact .ok x

theorem checked_failsLocally (x : Number) : FailsLocally x.checked := by
  cases x with
  | whole n => exact (toFloat_failsLocally _).map _
  | double x =>
    simp only [checked]
    split
    · exact .ok _
    · exact .error trivial

theorem toChecked_failsLocally (x : Number) : FailsLocally x.toChecked :=
  (toFloat_failsLocally x).bind fun nearest => checked_failsLocally (.double nearest)

theorem combine_failsLocally (wholes : Int → Int → Int) (doubles : Float → Float → Float)
    (l r : Number) : FailsLocally (combine wholes doubles l r) := by
  unfold combine
  split
  · exact .ok _
  · exact (toFloat_failsLocally _).bind fun x => (toFloat_failsLocally _).map _

theorem quotient_failsLocally (m n : Int) : FailsLocally (quotient m n) := by
  simp only [quotient]
  split
  · exact .ok _
  · exact .error trivial

theorem divide_failsLocally (l r : Number) : FailsLocally (l.divide r) := by
  unfold divide
  split
  · exact (quotient_failsLocally _ _).map _
  · exact (toFloat_failsLocally _).bind fun x => (toFloat_failsLocally _).map _

theorem percent_failsLocally (x : Number) : FailsLocally x.percent := by
  cases x with
  | whole n => exact (quotient_failsLocally _ _).map _
  | double x => exact .ok _

end Number

namespace Arithmetic

theorem finitePower_failsLocally (x : Float) : FailsLocally (finitePower x) := by
  unfold finitePower
  split
  · exact .error trivial
  · exact .ok _

theorem doublePower_failsLocally (base exponent : Float) :
    FailsLocally (doublePower base exponent) := by
  unfold doublePower
  split
  · exact .ok _
  · split
    · split
      · exact .error trivial
      · exact .ok _
    · split
      · split
        · exact finitePower_failsLocally _
        · exact (finitePower_failsLocally _).bind fun _ => .error trivial
      · split
        · exact .ok _
        · exact finitePower_failsLocally _

theorem power_failsLocally (l r : Number) : FailsLocally (power l r) := by
  unfold power
  split
  · apply FailsLocally.map
    unfold wholePower
    split
    · exact .ok _
    · split
      · exact .ok _
      · exact .error trivial
  · exact (Number.toFloat_failsLocally _).bind fun x => (Number.toFloat_failsLocally _).bind
      fun y => (doublePower_failsLocally x y).map _

end Arithmetic

theorem BinaryOp.apply_failsLocally (op : BinaryOp) (l r : Number) :
    FailsLocally (op.apply l r) := by
  cases op with
  | add | subtract | multiply => exact Number.combine_failsLocally _ _ l r
  | divide =>
    simp only [apply, Arithmetic.divide]
    split
    · exact .error trivial
    · exact Number.divide_failsLocally l r
  | power => exact Arithmetic.power_failsLocally l r
  | equal | notEqual | less | greater | lessEqual | greaterEqual => exact .ok _
  | other symbol => exact .error trivial

namespace Aggregate

theorem total_failsLocally (values : List Number) : FailsLocally (total values) := by
  have from_any : ∀ start, FailsLocally (values.foldlM Number.add start) := by
    induction values with
    | nil => exact fun start => .ok start
    | cons x xs ih => exact fun start => (Number.combine_failsLocally _ _ start x).bind ih
  exact from_any _

theorem apply_failsLocally (a : Aggregate) (values : List Number) :
    FailsLocally (a.apply values) := by
  cases a with
  | sum => exact total_failsLocally values
  | average =>
    cases values with
    | nil => exact .error trivial
    | cons x xs => exact (total_failsLocally _).bind fun t => Number.divide_failsLocally t _
  | maximum | minimum =>
    cases values with
    | nil => exact .error trivial
    | cons x xs => exact .ok _

end Aggregate

theorem Reading.andThen_failsLocally {α β : Type} {r : Reading α} {f : α → Reading β}
    (first : FailsLocally r.outcome) (next : ∀ x, FailsLocally (f x).outcome) :
    FailsLocally (r.andThen f).outcome := by
  unfold andThen
  split
  · rename_i failure outcome
    exact .error (first _ outcome)
  · exact next _

namespace Expr

mutual

theorem eval_failsLocally {v : Address → Except Failure Number}
    (known : ∀ a, FailsLocally (v a)) (e : Expr) : FailsLocally (e.eval v).outcome := by
  cases e with
  | const x => exact Number.checked_failsLocally (.double x)
  | ref r => exact (known _).bind Number.toChecked_failsLocally
  | percent e =>
    simp only [eval]
    exact Reading.andThen_failsLocally (eval_failsLocally known e)
      fun x => Number.percent_failsLocally x
  | unary s e =>
    simp only [eval]
    exact Reading.andThen_failsLocally (eval_failsLocally known e) fun x => .ok _
  | binary op l r =>
    simp only [eval]
    exact Reading.andThen_failsLocally (eval_failsLocally known l) fun x =>
      Reading.andThen_failsLocally (eval_failsLocally known r) fun y =>
        (op.apply_failsLocally x y).bind Number.checked_failsLocally
  | call name es =>
    simp only [eval]
    split
    · exact .error trivial
    · rename_i a _
      exact Reading.andThen_failsLocally (evalAll_failsLocally known es) fun xs =>
        (a.apply_failsLocally xs).bind Number.checked_failsLocally
    · exact Reading.andThen_failsLocally (evalChosen_failsLocally known es)
        fun x => Number.checked_failsLocally x

theorem evalAll_failsLocally {v : Address → Except Failure Number}
    (known : ∀ a, FailsLocally (v a)) (es : List Expr) :
    FailsLocally (evalAll v es).outcome := by
  cases es with
  | nil => exact .ok _
  | cons e es =>
    simp only [evalAll]
    exact Reading.andThen_failsLocally (eval_failsLocally known e) fun x =>
      Reading.andThen_failsLocally (evalAll_failsLocally known es) fun xs => .ok _

theorem evalChosen_failsLocally {v : Address → Except Failure Number}
    (known : ∀ a, FailsLocally (v a)) (es : List Expr) :
    FailsLocally (evalChosen v es).outcome := by
  match es with
  | [] => exact .error trivial
  | [_] => exact .error trivial
  | [c, yes] =>
    simp only [evalChosen]
    refine Reading.andThen_failsLocally (eval_failsLocally known c) fun x => ?_
    split
    · exact .ok _
    · exact eval_failsLocally known yes
  | [c, yes, no] =>
    simp only [evalChosen]
    refine Reading.andThen_failsLocally (eval_failsLocally known c) fun x => ?_
    split
    · exact eval_failsLocally known no
    · exact eval_failsLocally known yes
  | _ :: _ :: _ :: _ :: _ => exact .error trivial

end

end Expr

end Spreadsheet
