import Spreadsheet.Failure

namespace Spreadsheet

/-- The formula in a text: what follows an equal sign at its start. -/
def formulaBody? (text : String) : Option String :=
  match text.toList with
  | '=' :: body => some (String.ofList body)
  | _ => none

/-- What a cell holds: a literal, or a formula if its text starts with an equal sign. -/
structure CellContent where
  value : Option String := some ""
  formula : Option String := none
deriving DecidableEq

namespace CellContent

/-- The text of the formula after its equal sign. -/
def body? (c : CellContent) : Option String := c.formula.bind formulaBody?

def isFormula (c : CellContent) : Bool := c.body?.isSome

end CellContent

/-- The shorthands for the content of a cell. -/
inductive RawCell where
  | empty
  | text (text : String)
  | truth (value : Bool)
  | integer (value : Int)
  | number (value : Float)
  | content (content : CellContent)

/-- The content that a shorthand stands for. A whole number must be written for it. -/
def RawCell.toContent : RawCell → Except Failure CellContent
  | empty => .ok {}
  | text t => .ok (if (formulaBody? t).isSome then { formula := some t } else { value := some t })
  | truth b => .ok { value := some (if b then "1" else "0") }
  | integer n => if IsWritable n then .ok { value := some (toString n) } else .error .unwritable
  | number x => .ok { value := some (Shortest.text x) }
  | content c => .ok c

def RawCell.isFormula (raw : RawCell) : Bool := raw.toContent.toOption.any CellContent.isFormula

end Spreadsheet
