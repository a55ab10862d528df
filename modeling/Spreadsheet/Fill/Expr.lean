import Spreadsheet.Fill
import Spreadsheet.Formula.Expr

namespace Spreadsheet

/-- A reference after a copy: moved with a fresh spelling, or as it is. -/
def Reference.moved (d : Fill.Shift) (r : Reference) : Reference :=
  match d.move? r.address with
  | none => r
  | some a => ⟨a, a.text⟩

/-- An expression after a copy: only its references change. -/
def Expr.moved (d : Fill.Shift) (e : Expr) : Expr := e.mapReferences (·.moved d)

end Spreadsheet
