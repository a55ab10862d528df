import Spreadsheet.Decimal.Numeral
import Spreadsheet.Note
import Spreadsheet.Text.Blank

namespace Spreadsheet.Literal

/-- A literal without dollars, commas and the blanks around it. -/
def bare (cs : List Char) : List Char :=
  Text.strip (cs.filter fun c => ! (c == '$' || c == ','))

/-- A text without a percent sign at its end and the blanks before that, and whether it had one. -/
def splitPercent (cs : List Char) : List Char × Bool :=
  match cs.reverse with
  | '%' :: before => (Text.strip before.reverse, true)
  | _ => (cs, false)

/-- The number of a literal in arithmetic. A text that writes no finite number counts as zero, which
    is noted; an empty one counts as zero. -/
def value (text : String) : Float × List Note :=
  if text.isEmpty then (0.0, [])
  else
    let (written, isPercent) := splitPercent (bare text.toList)
    match Numeral.read? written with
    | none => (0.0, [.nonNumeric text])
    | some numeral =>
      let x := numeral.toFloat
      if x.isFinite then (if isPercent then x / 100.0 else x, [])
      else (0.0, [.outOfRange text])

end Spreadsheet.Literal
