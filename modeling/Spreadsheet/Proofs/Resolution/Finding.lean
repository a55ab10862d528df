import Spreadsheet.Proofs.Formula.Soundness
import Spreadsheet.Resolution.Direct
import Spreadsheet.Resolution.Graph

namespace Spreadsheet

/-- What a look into a cell finds. -/
inductive Finding where
  | value (x : Number) (notes : List Note)
  | formula (e : Expr)
  | failure (f : Failure)

namespace CellIndex

variable {index : CellIndex} {c : Coordinate} {path : List Address} {a : Address}

/-- A cell without a formula has a value of its own, and a formula may fail to be one. -/
def finding (index : CellIndex) (c : Coordinate) : Finding :=
  match index.get? c with
  | none => .value (.double 0.0) [.emptyCell c]
  | some content =>
    match content.body? with
    | none =>
      let literal := Literal.value (content.value.getD "")
      .value (.double literal.1) literal.2
    | some body =>
      match Expr.parse body with
      | .error f => .failure f
      | .ok e => .formula e

theorem finding_of_none (free : index.get? c = none) :
    index.finding c = .value (.double 0.0) [.emptyCell c] := by
  unfold finding
  rw [free]

theorem finding_of_literal {content : CellContent} (holds : index.get? c = some content)
    (literal : content.body? = none) :
    index.finding c = .value (.double (Literal.value (content.value.getD "")).1)
      (Literal.value (content.value.getD "")).2 := by
  unfold finding
  rw [holds]
  dsimp only
  rw [literal]

theorem finding_of_body? {content : CellContent} {body : String}
    (holds : index.get? c = some content) (formula : content.body? = some body) :
    index.finding c =
      match Expr.parse body with
      | .error f => .failure f
      | .ok e => .formula e := by
  unfold finding
  rw [holds]
  dsimp only
  rw [formula]

theorem finding_of_formula {content : CellContent} {body : String} {e : Expr}
    (holds : index.get? c = some content) (formula : content.body? = some body)
    (parsed : Expr.parse body = .ok e) : index.finding c = .formula e := by
  rw [finding_of_body? holds formula, parsed]

theorem exists_parse_of_finding {e : Expr} (found : index.finding c = .formula e) :
    ∃ body, Expr.parse body = .ok e := by
  unfold finding at found
  split at found
  · cases found
  · split at found
    · cases found
    · rename_i body _
      split at found
      · cases found
      · rename_i parsed
        cases found
        exact ⟨body, parsed⟩

/-- The cell holds a formula, which may fail to be read. -/
def IsFormula (index : CellIndex) (c : Coordinate) : Prop :=
  ∃ content, index.get? c = some content ∧ content.isFormula = true

theorem isFormula_of_finding (found : ∀ x notes, index.finding c ≠ .value x notes) :
    index.IsFormula c := by
  cases holds : index.get? c with
  | none => exact absurd (finding_of_none holds) (found _ _)
  | some content =>
    cases formula : content.body? with
    | none => exact absurd (finding_of_literal holds formula) (found _ _)
    | some body => exact ⟨content, holds, by simp [CellContent.isFormula, formula]⟩

theorem expr?_eq_some_iff {e : Expr} : index.expr? c = some e ↔ index.finding c = .formula e := by
  unfold expr? finding
  cases index.get? c with
  | none => simp
  | some content =>
    cases body : content.body? with
    | none => simp [body]
    | some body' =>
      cases parsed : Expr.parse body' <;> simp [body, parsed, Except.toOption]

theorem finding_failure_isLocal {f : Failure} (h : index.finding c = .failure f) : f.IsLocal := by
  unfold finding at h
  split at h
  · cases h
  · split at h
    · cases h
    · rename_i body _
      split at h
      · rename_i failure parsed
        cases h
        exact Expr.parse_failsLocally body _ parsed
      · cases h

theorem directCell_of_mem (h : a.coordinate ∈ path.map Address.coordinate) :
    index.directCell path a = .error (.circular (closedPath path a)) := by
  rw [directCell, dif_pos (by simpa using h)]

theorem directCell_of_not_mem (h : a.coordinate ∉ path.map Address.coordinate) :
    index.directCell path a =
      match index.finding a.coordinate with
      | .value x _ => .ok x
      | .failure f => .error f
      | .formula e => index.direct (path ++ [a]) e := by
  rw [directCell, dif_neg (by simpa using h)]
  unfold finding
  split
  · rename_i found
    simp only [found]
  · rename_i content found
    simp only [found]
    split
    · rename_i literal
      simp only [literal]
    · rename_i body formula
      simp only [formula]
      cases Expr.parse body with
      | error f => rfl
      | ok e => rfl

end CellIndex

end Spreadsheet
