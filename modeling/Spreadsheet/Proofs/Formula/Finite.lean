import Spreadsheet.Proofs.Decimal.Reading
import Spreadsheet.Proofs.Formula.Evaluation

namespace Spreadsheet

namespace Number

variable {x y : Number} {size v : Float} {negative : Bool}

/-- A number that a finite double is near to. -/
def IsFinite (x : Number) : Prop := ∃ v, x.toFloat = .ok v ∧ v.isFinite = true

theorem isFinite_withSign (h : size.isFinite = true) :
    (withSign negative size).isFinite = true := by
  unfold withSign
  split
  · exact Double.isFinite_neg h
  · exact h

theorem isFinite_double (h : v.isFinite = true) : (double v).IsFinite := ⟨v, rfl, h⟩

theorem isFinite_whole {n : Int} (value : (whole n).toFloat = .ok v) : (whole n).IsFinite := by
  refine ⟨v, value, ?_⟩
  simp only [Number.toFloat] at value
  split at value
  · rename_i finite
    cases value
    exact isFinite_withSign finite
  · cases value

theorem IsFinite.toFloat (h : x.IsFinite) (value : x.toFloat = .ok v) : v.isFinite = true := by
  obtain ⟨w, near, finite⟩ := h
  rw [near] at value
  cases value
  exact finite

theorem isFinite_of_checked (h : x.checked = .ok y) : y.IsFinite := by
  cases x with
  | whole n =>
    obtain ⟨v, near, rfl⟩ := Except.map_eq_ok h
    exact isFinite_whole near
  | double x =>
    simp only [checked] at h
    split at h
    · rename_i finite
      cases h
      exact isFinite_double finite
    · cases h

theorem checked_of_isFinite (h : v.isFinite = true) : (double v).checked = .ok (double v) := by
  rw [checked, if_pos h]

theorem isFinite_of_quotient {m n : Int} (h : quotient m n = .ok v) : v.isFinite = true := by
  simp only [quotient] at h
  split at h
  · rename_i finite
    cases h
    exact isFinite_withSign finite
  · cases h

theorem IsFinite.percent (h : x.IsFinite) (value : x.percent = .ok y) : y.IsFinite := by
  cases x with
  | whole n =>
    obtain ⟨v, found, rfl⟩ := Except.map_eq_ok value
    exact isFinite_double (isFinite_of_quotient found)
  | double x =>
    cases value
    exact isFinite_double (Double.isFinite_percent (h.toFloat rfl))

theorem IsFinite.negate (h : x.IsFinite) : x.negate.IsFinite := by
  cases x with
  | whole n =>
    obtain ⟨v, near, -⟩ := h
    simp only [Number.toFloat] at near
    split at near
    · rename_i finite
      have value : (whole (-n)).toFloat =
          .ok (withSign (decide (-n < 0)) (Float.ofNat n.natAbs)) := by
        simp only [Number.toFloat, Int.natAbs_neg, if_pos finite]
      exact isFinite_whole value
    · cases near
  | double x => exact isFinite_double (Double.isFinite_neg (h.toFloat rfl))

theorem IsFinite.sign (s : Sign) (h : x.IsFinite) : (s.apply x).IsFinite := by
  cases s with
  | minus => exact h.negate
  | plus | other => exact h

end Number

namespace Expr

variable {value : Address → Except Failure Number}

/-- What an expression gives is checked, but for the sign and the percent of a number. -/
theorem isFinite_of_eval (e : Expr) {x : Number} (h : (e.eval value).outcome = .ok x) :
    x.IsFinite := by
  match e with
  | const c =>
    rw [eval] at h
    exact Number.isFinite_of_checked (x := .double c) h
  | ref r =>
    rw [eval] at h
    obtain ⟨v, -, checked⟩ := Except.bind_eq_ok h
    obtain ⟨w, -, checked⟩ := Except.bind_eq_ok checked
    exact Number.isFinite_of_checked checked
  | percent e =>
    rw [eval] at h
    obtain ⟨y, found, result⟩ := Reading.andThen_eq_ok h
    exact (isFinite_of_eval e found).percent result
  | unary s e =>
    rw [eval] at h
    obtain ⟨y, found, result⟩ := Reading.andThen_eq_ok h
    cases result
    exact (isFinite_of_eval e found).sign s
  | binary op l r =>
    rw [eval] at h
    obtain ⟨y, -, right⟩ := Reading.andThen_eq_ok h
    obtain ⟨z, -, result⟩ := Reading.andThen_eq_ok right
    obtain ⟨w, -, checked⟩ := Except.bind_eq_ok result
    exact Number.isFinite_of_checked checked
  | call name es =>
    simp only [eval] at h
    split at h
    · cases h
    · obtain ⟨ys, -, result⟩ := Reading.andThen_eq_ok h
      obtain ⟨w, -, checked⟩ := Except.bind_eq_ok result
      exact Number.isFinite_of_checked checked
    · obtain ⟨y, -, checked⟩ := Reading.andThen_eq_ok h
      exact Number.isFinite_of_checked checked

end Expr

end Spreadsheet
