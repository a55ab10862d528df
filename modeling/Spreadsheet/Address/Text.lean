import Spreadsheet.Address.Basic
import Spreadsheet.Address.Column
import Spreadsheet.Text.Quoted

namespace Spreadsheet

namespace Address

def markerText (marked : Bool) : List Char := if marked then ['$'] else []

/-- An address in letters and digits, each after its marker. -/
def textChars (a : Address) : List Char :=
  markerText a.absoluteColumn ++ Column.letters (a.column + 1).toNat ++
    markerText a.absoluteRow ++ (toString (a.row + 1)).toList

def text (a : Address) : String := String.ofList a.textChars

end Address

def Coordinate.text (c : Coordinate) : String := c.toAddress.text

namespace CellName

def boolText (b : Bool) : String := if b then "True" else "False"

/-- A cell's name as messages show it: a quoted text, or the fields of an address. -/
def shown : CellName → String
  | .text t => Text.quote t
  | .address a =>
    "CellAddress(column=" ++ toString a.column ++ ", row=" ++ toString a.row ++
      ", absolute_column=" ++ boolText a.absoluteColumn ++
      ", absolute_row=" ++ boolText a.absoluteRow ++ ")"

end CellName

end Spreadsheet
