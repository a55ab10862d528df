import Spreadsheet.Address.Text

namespace Spreadsheet

/-- What is worth telling about an outcome without being a failure. -/
inductive Note where
  | emptyCell (cell : Coordinate)
  | nonNumeric (text : String)
  | outOfRange (text : String)
  | graded (cell candidate : String) (accepted : Bool)
deriving DecidableEq

def Note.message : Note → String
  | emptyCell cell => "Cell " ++ cell.text ++ " is empty, using 0"
  | nonNumeric text => "Treating non-numeric literal " ++ Text.quote text ++ " as 0"
  | outOfRange text => "Treating out-of-range literal " ++ Text.quote text ++ " as 0"
  | graded cell candidate accepted =>
    "Formula " ++ Text.quote candidate ++ " for " ++ cell ++ " is " ++
      if accepted then "accepted" else "rejected"

end Spreadsheet
