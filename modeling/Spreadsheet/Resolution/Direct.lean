import Spreadsheet.Resolution.Machine

namespace Spreadsheet

namespace CellIndex

/-- The formula cells that are not on a path. -/
def offPath (index : CellIndex) (path : List Address) : Nat :=
  index.countP fun (c, content) =>
    content.isFormula && ! (path.map Address.coordinate).contains c

theorem offPath_append_lt {index : CellIndex} {path : List Address} {a : Address}
    {content : CellContent} {body : String} (found : index.get? a.coordinate = some content)
    (formula : content.body? = some body)
    (absent : ¬ (path.map Address.coordinate).contains a.coordinate = true) :
    index.offPath (path ++ [a]) < index.offPath path := by
  apply countP_lt (x := (a.coordinate, content))
  · intro entry h
    simp only [List.map_append, Bool.and_eq_true, Bool.not_eq_true', List.contains_eq_mem,
      List.mem_append, decide_eq_false_iff_not] at h ⊢
    exact ⟨h.1, fun member => h.2 (Or.inl member)⟩
  · exact mem_of_get? found
  · simpa [CellContent.isFormula, formula] using absent
  · simp

/-- The cells of a path from the first one that is the cell of `a` on, and that cell again. -/
def closedPath (path : List Address) (a : Address) : List Coordinate :=
  (path.dropWhile (·.coordinate != a.coordinate)).map Address.coordinate ++ [a.coordinate]

mutual

/-- The value of an expression at the end of a path of formulas: the values of its cells, found
    anew for each of them, and then the expression itself. -/
def direct (index : CellIndex) (path : List Address) (e : Expr) : Except Failure Number :=
  (directAll index path e.cells).bind fun values => (e.eval values.value).outcome
termination_by (index.offPath path, e.cells.length + 2)

def directAll (index : CellIndex) (path : List Address) : List Address → Except Failure Memo
  | [] => .ok []
  | a :: as =>
    (directCell index path a).bind fun x =>
      (directAll index path as).map ((a.coordinate, x) :: ·)
termination_by as => (index.offPath path, as.length + 1)

/-- The value of a cell at the end of a path that does not hold it yet. -/
def directCell (index : CellIndex) (path : List Address) (a : Address) : Except Failure Number :=
  if onPath : (path.map Address.coordinate).contains a.coordinate then
    .error (.circular (closedPath path a))
  else
    match found : index.get? a.coordinate with
    | none => .ok (.double 0.0)
    | some content =>
      match formula : content.body? with
      | none => .ok (.double (Literal.value (content.value.getD "")).1)
      | some body =>
        match Expr.parse body with
        | .error e => .error e
        | .ok e =>
          have _shorter := offPath_append_lt found formula onPath
          direct index (path ++ [a]) e
termination_by (index.offPath path, 0)
decreasing_by exact Prod.Lex.left _ _ _shorter

end

/-- The value of a text that stands at a current address, found without keeping any value. -/
def directText (index : CellIndex) (current : Option Address) (text : String) :
    Except Failure Number :=
  match formulaBody? text with
  | none => .ok (.double (Literal.value text).1)
  | some body => (Expr.parse body).bind (direct index current.toList)

end CellIndex

end Spreadsheet
