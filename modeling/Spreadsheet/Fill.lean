import Spreadsheet.Address.Notation
import Spreadsheet.Cell.Content
import Spreadsheet.Text.Blank

namespace Spreadsheet.Fill

/-- The characters that words and numbers are made of. -/
def isJoining (c : Char) : Bool := c.isAlphanum || c == '_' || c == '$' || c == '.'

/-- An address token may end before this text: no character that would go on with the token follows,
    and no parenthesis, which would make it a function's name. -/
def endsToken (rest : List Char) : Bool :=
  match rest with
  | [] => true
  | c :: _ => ! isJoining c && (Text.dropBlanks rest).head? != some '('

/-- The longest run of digits at the head of a text that an address token may end with, out of the
    digits `taken` and all that follow them. -/
def takeRow? (taken : List Char) : List Char → Option (List Char × List Char)
  | [] => if taken.isEmpty then none else some (taken, [])
  | c :: rest =>
    let longer := if Text.isDecimalDigit c then takeRow? (taken ++ [c]) rest else none
    match longer with
    | some result => some result
    | none => if ! taken.isEmpty && endsToken (c :: rest) then some (taken, c :: rest) else none

/-- The address token at the head of a text: dollars, one to three letters, a dollar or none, and
    digits of any script. -/
def takeToken? (cs : List Char) : Option (List Char × List Char) :=
  let marks := cs.takeWhile (· == '$')
  let unmarked := cs.dropWhile (· == '$')
  let letters := unmarked.takeWhile Char.isAlpha
  let rowMark := (unmarked.dropWhile Char.isAlpha).takeWhile (· == '$')
  let row := (unmarked.dropWhile Char.isAlpha).dropWhile (· == '$')
  if letters.isEmpty || 3 < letters.length || 1 < rowMark.length then none
  else (takeRow? [] row).map fun (digits, rest) => (marks ++ letters ++ rowMark ++ digits, rest)

/-- A part of a formula's text: an address token, or a character outside of them. -/
inductive Piece where
  | token (chars : List Char)
  | other (c : Char)
deriving DecidableEq

def Piece.chars : Piece → List Char
  | token cs => cs
  | other c => [c]

theorem takeRow?_length {taken cs digits rest : List Char}
    (h : takeRow? taken cs = some (digits, rest)) :
    digits ≠ [] ∧ digits ++ rest = taken ++ cs := by
  induction cs generalizing taken with
  | nil =>
    simp only [takeRow?] at h
    split at h
    · cases h
    · rename_i nonempty
      cases h
      exact ⟨by simpa using nonempty, rfl⟩
  | cons c cs ih =>
    simp only [takeRow?] at h
    split at h
    · rename_i result found
      split at found
      · cases h
        have longer := ih found
        exact ⟨longer.1, by simpa using longer.2⟩
      · cases found
    · split at h
      · rename_i ends
        cases h
        simp only [Bool.and_eq_true, Bool.not_eq_true', List.isEmpty_eq_false_iff] at ends
        exact ⟨ends.1, rfl⟩
      · cases h

/-- A token and the text after it make up the text. -/
theorem takeToken?_append {cs token rest : List Char} (h : takeToken? cs = some (token, rest)) :
    token ≠ [] ∧ token ++ rest = cs := by
  simp only [takeToken?] at h
  split at h
  · cases h
  · obtain ⟨⟨digits, left⟩, found, same⟩ := Option.map_eq_some_iff.mp h
    cases same
    obtain ⟨nonempty, whole⟩ := takeRow?_length found
    refine ⟨by simp [nonempty], ?_⟩
    simp only [List.append_assoc, whole, List.nil_append, List.takeWhile_append_dropWhile]

/-- The address token at the head of a text in front of which no word or number ends. -/
def startToken? (joined : Bool) (cs : List Char) : Option (List Char × List Char) :=
  if joined then none else takeToken? cs

theorem startToken?_length {joined : Bool} {cs token rest : List Char}
    (h : startToken? joined cs = some (token, rest)) : rest.length < cs.length := by
  unfold startToken? at h
  split at h
  · cases h
  · obtain ⟨nonempty, whole⟩ := takeToken?_append h
    have positive := List.length_pos_iff.mpr nonempty
    rw [← whole, List.length_append]
    omega

/-- The address tokens of a text and the characters between them. A token starts where no word or
    number goes on; `joined` tells whether one ends in front of the text. -/
def pieces (joined : Bool) (cs : List Char) : List Piece :=
  match cs with
  | [] => []
  | c :: tail =>
    match h : startToken? joined (c :: tail) with
    | none => .other c :: pieces (isJoining c) tail
    | some (token, rest) =>
      have _shorter := startToken?_length h
      .token token :: pieces (token.getLast?.any isJoining) rest
termination_by cs.length
decreasing_by
  · exact Nat.lt_succ_self _
  · exact _shorter

/-- A distance between two cells. -/
structure Shift where
  columns : Int
  rows : Int
deriving DecidableEq

namespace Shift

/-- An address after a copy over a distance: its relative axes move, unless that leaves the grid
    or changes nothing. -/
def move? (d : Shift) (a : Address) : Option Address :=
  match a.shifted? (if a.absoluteColumn then 0 else d.columns) (if a.absoluteRow then 0 else d.rows) with
  | none => none
  | some moved => if moved.coordinate = a.coordinate then none else some moved

/-- An address token after a copy. A token that is no address stays as it is written. -/
def token (d : Shift) (cs : List Char) : Except Failure (List Char) :=
  match Address.parse? (String.ofList cs) with
  | .error e => .error e
  | .ok none => .ok cs
  | .ok (some a) =>
    match d.move? a with
    | none => .ok cs
    | some moved => moved.format.map String.toList

def piece (d : Shift) : Piece → Except Failure (List Char)
  | .token cs => d.token cs
  | .other c => .ok [c]

def allPieces (d : Shift) : List Piece → Except Failure (List Char)
  | [] => .ok []
  | p :: ps => (d.piece p).bind fun cs => (d.allPieces ps).map (cs ++ ·)

end Shift

/-- A cell's text after a copy over a distance. Only the address tokens of formulas change. -/
def shift (d : Shift) (text : String) : Except Failure String :=
  match formulaBody? text with
  | none => .ok text
  | some body =>
    if d.columns = 0 ∧ d.rows = 0 then .ok text
    else (d.allPieces (pieces false body.toList)).map fun cs => String.ofList ('=' :: cs)

/-- A cell's text after a copy from one cell to another. -/
def copy (text : String) (source target : Coordinate) : Except Failure String :=
  shift ⟨target.column - source.column, target.row - source.row⟩ text

/-- A copy along a row. -/
def horizontal (text : String) (source : Coordinate) (column : Int) : Except Failure String :=
  copy text source ⟨column, source.row⟩

/-- A copy along a column. -/
def vertical (text : String) (source : Coordinate) (row : Int) : Except Failure String :=
  copy text source ⟨source.column, row⟩

end Spreadsheet.Fill
