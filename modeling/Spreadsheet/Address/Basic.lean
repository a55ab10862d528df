namespace Spreadsheet

/-- A place in the grid, both axes counted from zero. -/
structure Coordinate where
  column : Int
  row : Int
deriving DecidableEq

/-- Column first, then row. -/
def Coordinate.le (a b : Coordinate) : Bool :=
  a.column < b.column || (a.column == b.column && a.row ≤ b.row)

/-- A reference to a cell. An absolute axis stays as it is when a formula is copied. -/
structure Address where
  column : Int
  row : Int
  absoluteColumn : Bool := false
  absoluteRow : Bool := false
deriving DecidableEq

namespace Address

/-- The cell that an address names; the markers do not matter. -/
def coordinate (a : Address) : Coordinate := ⟨a.column, a.row⟩

/-- The grid has columns A to XFD. -/
def lastColumn : Int := 16383

def InGrid (a : Address) : Prop := 0 ≤ a.column ∧ a.column ≤ lastColumn ∧ 0 ≤ a.row

instance (a : Address) : Decidable a.InGrid := inferInstanceAs (Decidable (_ ∧ _ ∧ _))

/-- The address moved by a distance on each axis, unless that leaves the grid. -/
def shifted? (a : Address) (columns rows : Int) : Option Address :=
  let moved := { a with column := a.column + columns, row := a.row + rows }
  if moved.InGrid then some moved else none

end Address

/-- The address of a cell without markers. -/
def Coordinate.toAddress (c : Coordinate) : Address := ⟨c.column, c.row, false, false⟩

@[simp] theorem Coordinate.toAddress_coordinate (c : Coordinate) :
    c.toAddress.coordinate = c := rfl

/-- How a table names a cell: by a text or by an address. -/
inductive CellName where
  | text (text : String)
  | address (address : Address)
deriving DecidableEq

end Spreadsheet
