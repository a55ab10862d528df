import Spreadsheet.Failure
import Spreadsheet.Text.Upper

namespace Spreadsheet

namespace Column

def isCapital (c : Char) : Bool := 'A' ≤ c && c ≤ 'Z'

/-- The index of a column of one to three letters in any case; A has index zero. -/
def index (letters : String) : Except Failure Int :=
  let capitals := Text.upperChars letters.toList
  if 1 ≤ capitals.length ∧ capitals.length ≤ 3 ∧ capitals.all isCapital then
    let index : Int := number capitals - 1
    if Address.lastColumn < index then .error (.lettersBeyondGrid letters) else .ok index
  else .error (.invalidLetters letters)

/-- The letters of a column of the grid. -/
def lettersOfIndex (index : Int) : Except Failure String :=
  if 0 ≤ index ∧ index ≤ Address.lastColumn then
    .ok (String.ofList (letters (index + 1).toNat))
  else .error (.naming index (.columnBeyondGrid index))

end Column

namespace Address

/-- The parts of an address's text: dollars, letters, one dollar or none, and digits. -/
structure Spelling where
  columnMarks : List Char
  letters : List Char
  rowMarked : Bool
  digits : List Char
deriving DecidableEq

def takeRowMark : List Char → Bool × List Char
  | '$' :: rest => (true, rest)
  | cs => (false, cs)

def Spelling.ofChars? (cs : List Char) : Option Spelling :=
  let marks := cs.takeWhile (· == '$')
  let unmarked := cs.dropWhile (· == '$')
  let letters := unmarked.takeWhile Char.isAlpha
  let (rowMarked, digits) := takeRowMark (unmarked.dropWhile Char.isAlpha)
  if letters.isEmpty || digits.isEmpty || ! digits.all Char.isDigit then none
  else some ⟨marks, letters, rowMarked, digits⟩

/-- The address that a text in A1 notation names. Its row number is checked before its column. -/
def parse (text : String) : Except Failure Address :=
  match Spelling.ofChars? text.toList with
  | none => .error (.malformedAddress text)
  | some s =>
    if digitLimit < s.digits.length then .error (.rowTooLong s.digits.length)
    else
      let row := Text.digitsValue s.digits
      if row = 0 then .error (.rowZero text)
      else
        match Column.index (String.ofList s.letters) with
        | .error e => .error e
        | .ok column => .ok ⟨column, row - 1, ! s.columnMarks.isEmpty, s.rowMarked⟩

/-- Like `parse`, but a text that is no address gives none. A row number that is too long to read
    still fails. -/
def parse? (text : String) : Except Failure (Option Address) :=
  match parse text with
  | .ok a => .ok (some a)
  | .error e => if e.kind = .address then .ok none else .error e

/-- The text of an address, if its column is in the grid and its row number is not too long. -/
def format (a : Address) : Except Failure String :=
  if a.column < 0 ∨ lastColumn < a.column then
    .error (.naming a.column (.columnBeyondGrid a.column))
  else if IsWritable (a.row + 1) then .ok a.text
  else .error .unwritable

end Address

/-- The address that a cell's name means. -/
def CellName.toAddress : CellName → Except Failure Address
  | .text t => Address.parse t
  | .address a => .ok a

end Spreadsheet
