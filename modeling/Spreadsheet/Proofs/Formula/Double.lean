import Spreadsheet.Proofs.Formula.Calculation
import Spreadsheet.Proofs.Formula.Finite
import Spreadsheet.Proofs.Formula.Outcome

namespace Spreadsheet

variable {value : Address → Except Failure Number} {outcome : Except Failure Number}
  {x y z : Number} {xs : List Number} {size : Nat}

namespace Number

def IsDouble : Number → Prop
  | whole _ => False
  | double _ => True

theorem exists_map_double (all : ∀ x ∈ xs, x.IsDouble) : ∃ ys : List Float, xs = ys.map double := by
  induction xs with
  | nil => exact ⟨[], rfl⟩
  | cons x xs ih =>
    obtain ⟨first, others⟩ := List.forall_mem_cons.mp all
    obtain ⟨ys, rfl⟩ := ih others
    cases x with
    | whole n => exact first.elim
    | double y => exact ⟨y :: ys, rfl⟩

theorem eq_of_checked (h : x.checked = .ok y) : y = x := by
  cases x with
  | whole n =>
    obtain ⟨-, -, rfl⟩ := Except.map_eq_ok h
    rfl
  | double x =>
    simp only [checked] at h
    split at h
    · cases h
      rfl
    · cases h

theorem isDouble_of_toChecked (h : x.toChecked = .ok y) : y.IsDouble := by
  obtain ⟨nearest, -, checked⟩ := Except.bind_eq_ok h
  rw [eq_of_checked checked]
  trivial

theorem isDouble_of_percent (h : x.percent = .ok y) : y.IsDouble := by
  cases x with
  | whole n =>
    obtain ⟨q, -, rfl⟩ := Except.map_eq_ok h
    trivial
  | double x =>
    cases h
    trivial

theorem IsDouble.sign (s : Sign) (h : x.IsDouble) : (s.apply x).IsDouble := by
  cases x with
  | whole n => exact h.elim
  | double x => cases s <;> trivial

end Number

theorem Calculates.isDouble (h : Calculates size outcome) (value : outcome = .ok x) :
    x.IsDouble := by
  rcases h with ⟨y, rfl⟩ | ⟨f, rfl, -⟩
  · cases value
    trivial
  · cases value

theorem BinaryOp.isDouble_of_apply {op : BinaryOp} (left : x.IsDouble) (right : y.IsDouble)
    (value : op.apply x y = .ok z) : z.IsDouble := by
  cases x with
  | whole m => exact left.elim
  | double x =>
    cases y with
    | whole n => exact right.elim
    | double y =>
      cases op with
      | other symbol => cases value
      | _ => exact (@apply_calculates 0 _ (by exact trivial) x y).isDouble value

theorem Aggregate.isDouble_of_apply {a : Aggregate} (all : ∀ x ∈ xs, x.IsDouble)
    (given : a = .sum → xs ≠ []) (value : a.apply xs = .ok y) : y.IsDouble := by
  obtain ⟨ys, rfl⟩ := Number.exists_map_double all
  cases ys with
  | nil =>
    cases a with
    | sum => exact absurd rfl (given rfl)
    | average | maximum | minimum => cases value
  | cons y ys =>
    exact (apply_calculates a (List.cons_ne_nil y ys) (Nat.le_refl _)).isDouble value

namespace Expr

mutual

/-- Somewhere in an expression a sum is called without arguments. -/
def HasEmptySum : Expr → Prop
  | const _ => False
  | ref _ => False
  | percent e => e.HasEmptySum
  | unary _ e => e.HasEmptySum
  | binary _ l r => l.HasEmptySum ∨ r.HasEmptySum
  | call name es => name = "SUM" ∧ es = [] ∨ HasEmptySumInAll es

def HasEmptySumInAll : List Expr → Prop
  | [] => False
  | e :: es => e.HasEmptySum ∨ HasEmptySumInAll es

end

mutual

/-- Whole numbers come from sums without arguments alone: references count as doubles, and doubles
    give doubles. -/
theorem isDouble_of_eval (e : Expr) {x : Number} (none : ¬ e.HasEmptySum)
    (h : (e.eval value).outcome = .ok x) : x.IsDouble := by
  cases e with
  | const c =>
    rw [eval] at h
    rw [Number.eq_of_checked (x := .double c) h]
    trivial
  | ref r =>
    rw [eval] at h
    obtain ⟨v, -, checked⟩ := Except.bind_eq_ok h
    exact Number.isDouble_of_toChecked checked
  | percent e =>
    rw [eval] at h
    obtain ⟨y, -, result⟩ := Reading.andThen_eq_ok h
    exact Number.isDouble_of_percent result
  | unary s e =>
    rw [eval] at h
    obtain ⟨y, found, result⟩ := Reading.andThen_eq_ok h
    cases result
    exact (isDouble_of_eval e none found).sign s
  | binary op l r =>
    rw [HasEmptySum, not_or] at none
    rw [eval] at h
    obtain ⟨y, left, rest⟩ := Reading.andThen_eq_ok h
    obtain ⟨z, right, result⟩ := Reading.andThen_eq_ok rest
    obtain ⟨w, applied, checked⟩ := Except.bind_eq_ok result
    rw [Number.eq_of_checked checked]
    exact BinaryOp.isDouble_of_apply (isDouble_of_eval l none.1 left)
      (isDouble_of_eval r none.2 right) applied
  | call name es =>
    rw [HasEmptySum, not_or] at none
    simp only [eval] at h
    split at h
    · cases h
    · rename_i a named
      obtain ⟨xs, found, result⟩ := Reading.andThen_eq_ok h
      obtain ⟨w, applied, checked⟩ := Except.bind_eq_ok result
      obtain ⟨all, count⟩ := isDouble_of_evalAll es none.2 found
      rw [Number.eq_of_checked checked]
      refine Aggregate.isDouble_of_apply all ?_ applied
      rintro rfl rfl
      exact none.1 ⟨(Function.name_of_named? named).symm, List.length_eq_zero_iff.mp count.symm⟩
    · obtain ⟨y, found, checked⟩ := Reading.andThen_eq_ok h
      rw [Number.eq_of_checked checked]
      exact isDouble_of_evalChosen es none.2 found

theorem isDouble_of_evalAll (es : List Expr) {xs : List Number} (none : ¬ HasEmptySumInAll es)
    (h : (evalAll value es).outcome = .ok xs) :
    (∀ x ∈ xs, x.IsDouble) ∧ xs.length = es.length := by
  cases es with
  | nil =>
    cases h
    exact ⟨nofun, rfl⟩
  | cons e es =>
    rw [HasEmptySumInAll, not_or] at none
    rw [evalAll] at h
    obtain ⟨y, first, rest⟩ := Reading.andThen_eq_ok h
    obtain ⟨ys, others, result⟩ := Reading.andThen_eq_ok rest
    cases result
    obtain ⟨all, count⟩ := isDouble_of_evalAll es none.2 others
    exact ⟨List.forall_mem_cons.mpr ⟨isDouble_of_eval e none.1 first, all⟩,
      congrArg Nat.succ count⟩

theorem isDouble_of_evalChosen (es : List Expr) {x : Number} (none : ¬ HasEmptySumInAll es)
    (h : (evalChosen value es).outcome = .ok x) : x.IsDouble := by
  match es with
  | [] | [_] | _ :: _ :: _ :: _ :: _ => cases h
  | [c, yes] =>
    simp only [HasEmptySumInAll, not_or] at none
    rw [evalChosen] at h
    obtain ⟨y, -, chosen⟩ := Reading.andThen_eq_ok h
    split at chosen
    · cases chosen
      trivial
    · exact isDouble_of_eval yes none.2.1 chosen
  | [c, yes, no] =>
    simp only [HasEmptySumInAll, not_or] at none
    rw [evalChosen] at h
    obtain ⟨y, -, chosen⟩ := Reading.andThen_eq_ok h
    split at chosen
    · exact isDouble_of_eval no none.2.2.1 chosen
    · exact isDouble_of_eval yes none.2.1 chosen

end

mutual

theorem WellFormed.not_hasEmptySum {e : Expr} (formed : e.WellFormed size) : ¬ e.HasEmptySum := by
  cases e with
  | const x => exact id
  | ref r => exact id
  | percent e => exact WellFormed.not_hasEmptySum (e := e) formed
  | unary s e => exact WellFormed.not_hasEmptySum (e := e) formed.2
  | binary op l r =>
    rw [HasEmptySum, not_or]
    exact ⟨WellFormed.not_hasEmptySum formed.2.1, WellFormed.not_hasEmptySum formed.2.2⟩
  | call name es =>
    obtain ⟨⟨f, rfl, admitted⟩, -, arguments⟩ := formed
    rw [HasEmptySum, not_or]
    refine ⟨?_, AllWellFormed.not_hasEmptySum arguments⟩
    rintro ⟨-, rfl⟩
    exact absurd admitted.1 (by cases f <;> simp [Function.arity])

theorem AllWellFormed.not_hasEmptySum {es : List Expr} (formed : AllWellFormed size es) :
    ¬ HasEmptySumInAll es := by
  cases es with
  | nil => exact id
  | cons e es =>
    rw [HasEmptySumInAll, not_or]
    exact ⟨WellFormed.not_hasEmptySum formed.1, AllWellFormed.not_hasEmptySum formed.2⟩

end

end Expr

namespace Number

/-- A number that is a finite double. -/
def IsFiniteDouble (x : Number) : Prop := ∃ y : Float, x = double y ∧ y.isFinite = true

theorem IsFinite.isFiniteDouble (finite : x.IsFinite) (double : x.IsDouble) :
    x.IsFiniteDouble := by
  cases x with
  | whole n => exact double.elim
  | double y => exact ⟨y, rfl, finite.toFloat rfl⟩

theorem IsFiniteDouble.toChecked (h : x.IsFiniteDouble) : x.toChecked = .ok x := by
  obtain ⟨y, rfl, finite⟩ := h
  exact checked_of_isFinite finite

end Number

namespace Expr

theorem isFiniteDouble_of_eval {e : Expr} (none : ¬ e.HasEmptySum)
    (h : (e.eval value).outcome = .ok x) : x.IsFiniteDouble :=
  (isFinite_of_eval e h).isFiniteDouble (isDouble_of_eval e none h)

theorem not_hasEmptySum_of_parse {text : String} {e : Expr} (parsed : parse text = .ok e) :
    ¬ e.HasEmptySum := (wellFormed_of_parse parsed).not_hasEmptySum

end Expr

end Spreadsheet
