import Spreadsheet.Proofs.Decimal.Reading
import Spreadsheet.Proofs.Failure
import Spreadsheet.Proofs.Formula.Evaluation
import Spreadsheet.Proofs.Formula.WellFormed

namespace Spreadsheet

/-- A failure of a calculation: of its arithmetic, or of the mean of more numbers than a double can
    count. -/
def Failure.OfCalculation (size : Nat) (f : Failure) : Prop :=
  f.IsArithmetic ∨ f = .wholeTooLarge ∧ 2 ^ 1023 ≤ size

/-- A number is calculated, which is a double, or the calculation fails. -/
def Calculates (size : Nat) (outcome : Except Failure Number) : Prop :=
  (∃ x : Float, outcome = .ok (.double x)) ∨ ∃ f, outcome = .error f ∧ f.OfCalculation size

namespace Calculates

variable {size : Nat} {outcome : Except Failure Number}

theorem ok (x : Float) : Calculates size (.ok (.double x)) := .inl ⟨x, rfl⟩

theorem error {f : Failure} (h : f.OfCalculation size) : Calculates size (.error f) :=
  .inr ⟨f, rfl, h⟩

theorem bind {g : Number → Except Failure Number} (h : Calculates size outcome)
    (next : ∀ x, Calculates size (g (.double x))) : Calculates size (outcome.bind g) := by
  rcases h with ⟨x, rfl⟩ | ⟨f, rfl, failure⟩
  · exact next x
  · exact .error failure

theorem fails (h : Calculates size outcome) : Fails (Failure.OfCalculation size) outcome := by
  rcases h with ⟨x, rfl⟩ | ⟨f, rfl, failure⟩
  · exact .ok _
  · exact .error failure

theorem of_fails {x : Except Failure Float} (h : Fails (Failure.OfCalculation size) x) :
    Calculates size (x.map .double) := by
  cases x with
  | ok x => exact .ok x
  | error f => exact .error (h f rfl)

end Calculates

variable {size : Nat} {x y : Float} {xs : List Float} {v : Address → Except Failure Number}

theorem Number.checked_calculates (x : Float) : Calculates size (double x).checked := by
  rw [checked]
  split
  · exact .ok x
  · exact .error (.inl trivial)

namespace Arithmetic

theorem finitePower_fails (x : Float) : Fails (Failure.OfCalculation size) (finitePower x) := by
  unfold finitePower
  split
  · exact .error (.inl trivial)
  · exact .ok _

theorem doublePower_fails (base exponent : Float) :
    Fails (Failure.OfCalculation size) (doublePower base exponent) := by
  unfold doublePower
  split
  · exact .ok _
  · split
    · split
      · exact .error (.inl trivial)
      · exact .ok _
    · split
      · split
        · exact finitePower_fails _
        · exact (finitePower_fails _).bind fun _ => .error (.inl trivial)
      · split
        · exact .ok _
        · exact finitePower_fails _

end Arithmetic

theorem BinaryOp.apply_calculates {op : BinaryOp} (known : op.IsKnown) (x y : Float) :
    Calculates size (op.apply (.double x) (.double y)) := by
  cases op with
  | add | subtract | multiply => exact .ok _
  | divide =>
    simp only [apply, Arithmetic.divide]
    split
    · exact .error (.inl trivial)
    · exact .ok _
  | power => exact .of_fails (Arithmetic.doublePower_fails x y)
  | equal | notEqual | less | greater | lessEqual | greaterEqual => exact .ok _
  | other symbol => exact known.elim

namespace Aggregate

theorem foldlM_add (x : Float) (xs : List Float) :
    ∃ y : Float, (xs.map Number.double).foldlM Number.add (.double x) = .ok (.double y) := by
  induction xs generalizing x with
  | nil => exact ⟨x, rfl⟩
  | cons z xs ih => exact ih (x + z)

theorem total_double (some : xs ≠ []) :
    ∃ y : Float, total (xs.map .double) = .ok (.double y) := by
  obtain ⟨x, xs, rfl⟩ := List.exists_cons_of_ne_nil some
  have zero : (Float.ofNat 0).isFinite = true := rfl
  have first : Number.add (.whole 0) (.double x) = .ok (.double (Float.ofNat 0 + x)) := by
    simp only [Number.add, Number.combine, Number.toFloat, Int.natAbs_zero, if_pos zero]
    rfl
  obtain ⟨y, rest⟩ := foldlM_add (Float.ofNat 0 + x) xs
  refine ⟨y, ?_⟩
  rw [total, List.map_cons, List.foldlM_cons, first]
  exact rest

theorem foldl_double (choose : Number → Number → Bool) (x : Float) (xs : List Float) :
    ∃ y : Float, (xs.map Number.double).foldl (fun best z => if choose best z then z else best)
      (.double x) = .double y := by
  induction xs generalizing x with
  | nil => exact ⟨x, rfl⟩
  | cons z xs ih =>
    simp only [List.map_cons, List.foldl_cons]
    split
    · exact ih z
    · exact ih x

theorem apply_calculates (a : Aggregate) (some : xs ≠ []) (count : xs.length ≤ size) :
    Calculates size (a.apply (xs.map .double)) := by
  obtain ⟨y, sum⟩ := total_double some
  obtain ⟨x, xs, rfl⟩ := List.exists_cons_of_ne_nil some
  cases a with
  | sum => exact .inl ⟨y, sum⟩
  | average =>
    rw [List.map_cons] at sum ⊢
    simp only [apply, sum, Except.bind, Number.divide, Number.toFloat, List.length_cons,
      List.length_map, Int.natAbs_natCast]
    split
    · exact .ok _
    · rename_i infinite
      refine .error (.inr ⟨rfl, ?_⟩)
      refine Nat.le_of_not_lt fun less => infinite (Double.isFinite_ofNat ?_)
      exact Nat.lt_of_le_of_lt count less
  | maximum =>
    obtain ⟨z, greatest⟩ := foldl_double Number.less x xs
    exact .inl ⟨z, congrArg Except.ok greatest⟩
  | minimum =>
    obtain ⟨z, least⟩ := foldl_double (fun best z => z.less best) x xs
    exact .inl ⟨z, congrArg Except.ok least⟩

end Aggregate

namespace Expr

mutual

/-- A well-formed expression whose references have values gives a double, or its calculation
    fails. -/
theorem eval_calculates (e : Expr) (formed : e.WellFormed size)
    (known : ∀ r ∈ e.references, ∃ x : Float, v r.address = .ok (.double x)) :
    Calculates size (e.eval v).outcome := by
  cases e with
  | const x => exact Number.checked_calculates x
  | ref r =>
    obtain ⟨x, value⟩ := known r (List.mem_singleton_self r)
    simp only [eval, value]
    exact Number.checked_calculates x
  | percent e =>
    rw [eval, Reading.outcome_andThen]
    exact (eval_calculates e formed known).bind fun x => .ok _
  | unary s e =>
    rw [eval, Reading.outcome_andThen]
    exact (eval_calculates e formed.2 known).bind fun x => by cases s <;> exact .ok _
  | binary op l r =>
    obtain ⟨operator, left, right⟩ := formed
    have first := eval_calculates l left fun q member =>
      known q (List.mem_append_left _ member)
    have second := eval_calculates r right fun q member =>
      known q (List.mem_append_right _ member)
    rw [eval, Reading.outcome_andThen]
    refine first.bind fun x => ?_
    rw [Reading.outcome_andThen]
    refine second.bind fun y => ?_
    exact (BinaryOp.apply_calculates operator x y).bind Number.checked_calculates
  | call name es =>
    obtain ⟨⟨f, rfl, admitted⟩, count, arguments⟩ := formed
    simp only [eval, Function.named?_name]
    cases f with
    | aggregate a =>
      have some : es ≠ [] := by
        rintro rfl
        exact absurd admitted.1 (by simp [Function.arity])
      rw [Reading.outcome_andThen]
      rcases evalAll_calculates es arguments known with
        ⟨xs, all, same⟩ | ⟨f, failed, failure⟩
      · rw [all]
        have some' : xs ≠ [] := by
          rwa [← List.length_pos_iff, same, List.length_pos_iff]
        exact (a.apply_calculates some' (same ▸ count)).bind Number.checked_calculates
      · rw [failed]
        exact .error failure
    | conditional =>
      rw [Reading.outcome_andThen]
      exact (evalChosen_calculates es arguments admitted known).bind Number.checked_calculates

theorem evalAll_calculates (es : List Expr) (formed : AllWellFormed size es)
    (known : ∀ r ∈ referencesOfAll es, ∃ x : Float, v r.address = .ok (.double x)) :
    (∃ xs : List Float, (evalAll v es).outcome = .ok (xs.map .double) ∧
      xs.length = es.length) ∨
    ∃ f, (evalAll v es).outcome = .error f ∧ f.OfCalculation size := by
  cases es with
  | nil => exact .inl ⟨[], rfl, rfl⟩
  | cons e es =>
    have first := eval_calculates e formed.1 fun q member =>
      known q (List.mem_append_left _ member)
    have rest := evalAll_calculates es formed.2 fun q member =>
      known q (List.mem_append_right _ member)
    rw [evalAll, Reading.outcome_andThen]
    rcases first with ⟨x, value⟩ | ⟨f, failed, failure⟩
    · rcases rest with ⟨xs, all, same⟩ | ⟨f, failed, failure⟩
      · refine .inl ⟨x :: xs, ?_, by rw [List.length_cons, same, List.length_cons]⟩
        rw [value]
        simp only [Except.bind, Reading.outcome_andThen, all]
        rfl
      · refine .inr ⟨f, ?_, failure⟩
        rw [value]
        simp only [Except.bind, Reading.outcome_andThen, failed]
    · refine .inr ⟨f, ?_, failure⟩
      rw [failed]
      rfl

theorem evalChosen_calculates (es : List Expr) (formed : AllWellFormed size es)
    (admitted : Function.conditional.arity.Admits es.length)
    (known : ∀ r ∈ referencesOfAll es, ∃ x : Float, v r.address = .ok (.double x)) :
    Calculates size (evalChosen v es).outcome := by
  match es with
  | [] | [_] => exact absurd admitted.1 (by simp [Function.arity])
  | [c, yes] =>
    simp only [referencesOfAll, List.mem_append] at known
    have condition := eval_calculates c formed.1 fun q member => known q (by simp [member])
    have chosen := eval_calculates yes formed.2.1 fun q member => known q (by simp [member])
    rw [evalChosen, Reading.outcome_andThen]
    refine condition.bind fun x => ?_
    split
    · exact .ok _
    · exact chosen
  | [c, yes, no] =>
    simp only [referencesOfAll, List.mem_append] at known
    have condition := eval_calculates c formed.1 fun q member => known q (by simp [member])
    have chosen := eval_calculates yes formed.2.1 fun q member => known q (by simp [member])
    have other := eval_calculates no formed.2.2.1 fun q member => known q (by simp [member])
    rw [evalChosen, Reading.outcome_andThen]
    refine condition.bind fun x => ?_
    split
    · exact other
    · exact chosen
  | _ :: _ :: _ :: _ :: es =>
    have most := admitted.2 3 rfl
    simp only [List.length_cons] at most
    omega

end

end Expr

end Spreadsheet
