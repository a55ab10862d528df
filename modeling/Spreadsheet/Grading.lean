import Spreadsheet.Decimal.Binary
import Spreadsheet.Note
import Spreadsheet.Text.Blank
import Spreadsheet.Text.Upper

namespace Spreadsheet

/-- The formulas that are accepted for one cell. -/
structure AnswerEntry where
  accepted : List String
  hint : Option String := none
  explanation : Option String := none
  points : Int := 0

/-- The cells that need a formula, each named once, with what is accepted for them. -/
abbrev AnswerKey := List (String × AnswerEntry)

/-- The judgement on a formula for one cell. -/
structure Grade where
  isCorrect : Bool
  points : Int := 0
  expected : Option String := none
  hint : Option String := none
  explanation : Option String := none
deriving DecidableEq

namespace AnswerKey

/-- An answer key from entries in order; a later entry for the same cell takes the place of an
    earlier one. -/
def ofEntries (entries : List (String × AnswerEntry)) : AnswerKey :=
  entries.foldl (fun key entry =>
    if key.any (·.1 == entry.1) then key.map fun old => if old.1 == entry.1 then entry else old
    else key ++ [entry]) []

end AnswerKey

namespace Grading

/-- Formulas are compared without blanks and in capitals. -/
def normalize (formula : String) : String :=
  String.ofList (Text.upperChars (Text.removeBlanks formula.toList))

def matchesAny (candidate : String) (accepted : List String) : Bool :=
  accepted.any (normalize · == normalize candidate)

/-- Whether one of the accepted formulas is the candidate, with the note that tells so. -/
def isAccepted (cell candidate : String) (accepted : List String) : Bool × List Note :=
  let result := matchesAny candidate accepted
  (result, [.graded cell candidate result])

/-- The first of some texts by code points. -/
def leastText? : List String → Option String
  | [] => none
  | t :: ts => some (ts.foldl (fun best t => if t < best then t else best) t)

/-- The grade of a candidate. A cell without an entry under its name in capitals needs no particular
    formula. A rejected candidate is told the hint and an accepted formula. -/
def grade (cell candidate : String) (key : AnswerKey) : Grade :=
  match List.lookup (Text.upper cell) key with
  | none => { isCorrect := true }
  | some entry =>
    if matchesAny candidate entry.accepted then
      { isCorrect := true, points := entry.points, explanation := entry.explanation }
    else
      { isCorrect := false, expected := leastText? entry.accepted, hint := entry.hint }

/-- How many cells of a key are among the completed ones, whatever their case. -/
def doneCount (completed : List String) (key : AnswerKey) : Nat :=
  key.countP fun entry => (completed.map Text.upper).contains (Text.upper entry.1)

/-- A share in percent in binary floating point, rounded half up. -/
def percentage (done total : Nat) : Nat :=
  (Dyadic.ofFloat (Float.ofNat (done * 100) / Float.ofNat total + 0.5)).floor

/-- The percentage of a key's cells that are completed; it is zero for an empty key. -/
def completion (completed : List String) (key : AnswerKey) : Nat :=
  if key.isEmpty then 0 else percentage (doneCount completed key) key.length

/-- A learner's progress: the cells answered correctly and the points won. -/
structure Progress where
  completed : List String := []
  points : Int := 0

/-- The grade of one answer and the progress after it. -/
def Progress.answer (p : Progress) (cell candidate : String) (key : AnswerKey) : Grade × Progress :=
  let g := grade cell candidate key
  (g, ⟨if g.isCorrect then p.completed ++ [cell] else p.completed, p.points + g.points⟩)

end Grading

end Spreadsheet
