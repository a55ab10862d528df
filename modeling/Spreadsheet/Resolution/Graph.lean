import Spreadsheet.Cell.Index
import Spreadsheet.Formula.Parse

namespace Spreadsheet

namespace CellIndex

/-- The expression of a formula cell. -/
def expr? (index : CellIndex) (c : Coordinate) : Option Expr :=
  (index.get? c).bind fun content => content.body?.bind fun body => (Expr.parse body).toOption

/-- The formula in a cell references a cell. -/
def References (index : CellIndex) (c d : Coordinate) : Prop :=
  ∃ e, index.expr? c = some e ∧ d ∈ e.coordinates

/-- The cells that an expression references, and those that their formulas reference in turn. -/
inductive Reachable (index : CellIndex) (e : Expr) : Coordinate → Prop where
  | direct {c : Coordinate} (member : c ∈ e.coordinates) : Reachable index e c
  | through {c d : Coordinate} (reached : Reachable index e c) (edge : index.References c d) :
      Reachable index e d

/-- The cells that the formula in a text references, and those that are referenced from them. -/
def LeadsTo (index : CellIndex) (text : String) (c : Coordinate) : Prop :=
  ∃ body e, formulaBody? text = some body ∧ Expr.parse body = .ok e ∧ index.Reachable e c

/-- Each cell of a list references the next one. -/
def Chain (index : CellIndex) : List Coordinate → Prop
  | [] => True
  | [_] => True
  | c :: d :: cs => index.References c d ∧ Chain index (d :: cs)

theorem Chain.concat {index : CellIndex} {c d : Coordinate} {cs : List Coordinate}
    (chain : index.Chain (cs ++ [c])) (edge : index.References c d) :
    index.Chain (cs ++ [c] ++ [d]) := by
  induction cs with
  | nil => exact ⟨edge, trivial⟩
  | cons b cs ih =>
    cases cs with
    | nil => exact ⟨chain.1, ih chain.2⟩
    | cons b' cs => exact ⟨chain.1, ih chain.2⟩

theorem Reachable.chain {index : CellIndex} {e : Expr} {c : Coordinate} {cs : List Coordinate}
    (start : index.Reachable e c) (chain : index.Chain (c :: cs)) :
    ∀ d ∈ c :: cs, index.Reachable e d := by
  induction cs generalizing c with
  | nil =>
    intro d member
    rw [List.mem_singleton.mp member]
    exact start
  | cons b cs ih =>
    intro d member
    rcases List.mem_cons.mp member with rfl | member
    · exact start
    · exact ih (start.through chain.1) chain.2 d member

end CellIndex

end Spreadsheet
