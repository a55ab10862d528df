import Spreadsheet.Decimal.Fixed
import Spreadsheet.Resolution.Run

namespace Spreadsheet

/-- Resolves formulas over the cells of a table, standing at a current address. The values of cells
    are kept from one formula to the next. -/
structure Resolver where
  index : CellIndex
  current : Option Address
  maxDepth : Option Int
  memo : Memo
  stack : CallStack

/-- The outcome of a formula, the resolver after it, and what was noted on the way. -/
structure Resolution where
  outcome : Except Failure Number
  resolver : Resolver
  notes : List Note

namespace Resolver

def ofIndex (index : CellIndex) (current : Option Address) (maxDepth : Option Int) : Resolver :=
  ⟨index, current, maxDepth, [], .empty⟩

/-- A resolver without any resolved cell. The table is checked before the current address. -/
def ofTable (table : CellTable) (current : Option CellName) (maxDepth : Option Int) :
    Except Failure Resolver :=
  match CellIndex.ofTable table with
  | .error e => .error e
  | .ok index =>
    match current with
    | none => .ok (ofIndex index none maxDepth)
    | some name => name.toAddress.map fun a => ofIndex index (some a) maxDepth

def setting (r : Resolver) : Setting := ⟨r.index, r.maxDepth⟩

/-- The value of a formula's expression after its references have been resolved depth first. -/
def resolveExpr (r : Resolver) (e : Expr) : Resolution :=
  let ended := Machine.run r.setting (.start r.current r.memo e) (Machine.start_aligned ..)
  ⟨ended.1, { r with memo := ended.2.memo, stack := ended.2.stack }, ended.2.notes⟩

/-- The value of a cell's text. A text without an equal sign is a literal. -/
def resolve (r : Resolver) (text : String) : Resolution :=
  match formulaBody? text with
  | none => ⟨.ok (.double (Literal.value text).1), r, (Literal.value text).2⟩
  | some body =>
    match Expr.parse body with
    | .error e => ⟨.error e, { r with stack := .ofCurrent r.current }, []⟩
    | .ok e => r.resolveExpr e

end Resolver

/-- The value of a text as if it stood at the current address of a table. -/
def resolveText (text : String) (table : CellTable) (current : Option CellName)
    (maxDepth : Option Int) : Except Failure Number × List Note :=
  match Resolver.ofTable table current maxDepth with
  | .error e => (.error e, [])
  | .ok r => ((r.resolve text).outcome, (r.resolve text).notes)

/-- How many digits rounding to some decimal places may take. -/
def workingDigits (places : Int) : Int := 330 + places

def mostDigits : Int := 999999999999999999

/-- The numbers of digits that a signed word of 64 bits holds. -/
def wordHolds (digits : Int) : Bool :=
  decide (-9223372036854775808 ≤ digits) && decide (digits ≤ 9223372036854775807)

def mostPlaces : Int := 2000054

/-- The text of a number for display: finite, rounded to some decimal places. -/
def displayNumber (x : Number) (places : Int) : Except Failure String :=
  x.toFloat.bind fun nearest =>
    if ! nearest.isFinite then .error (.notFinite nearest)
    else if ! wordHolds (workingDigits places) then .error .precisionTooLarge
    else if workingDigits places < 1 ∨ mostDigits < workingDigits places then
      .error .invalidPrecision
    else if mostPlaces < places then .error .unitTooFine
    else if Fixed.exceeds x.toDyadic places (workingDigits places).toNat then .error .unitTooFine
    else .ok (Fixed.text x.toDyadic places)

def displayText (text : String) (table : CellTable) (current : Option CellName)
    (maxDepth : Option Int) (places : Int) : Except Failure String :=
  (resolveText text table current maxDepth).1.bind (displayNumber · places)

/-- The distinct cells that a cell's text references. A literal references none. -/
def extractReferences (text : String) : Except Failure (List Address) :=
  match formulaBody? text with
  | none => .ok []
  | some body => (Expr.parse body).map Expr.cells

namespace CellTable

/-- The text of a cell that is resolved: its formula if it has one, and else its value. -/
def sourceText? (content : CellContent) : Option String :=
  if content.isFormula then content.formula else content.value

/-- The value of the text of a cell, standing at that cell. -/
def valueOf (table : CellTable) (name : CellName) (content : CellContent) :
    Except Failure Number :=
  match sourceText? content with
  | some text => (resolveText text table (some name) none).1
  | none => (Resolver.ofTable table (some name) none).bind fun _ => .error .missingText

/-- The value of each cell of a table, with its display text. -/
def evaluateAll (table : CellTable) : List (Except Failure (Number × String)) :=
  table.map fun (name, raw) =>
    (raw.toContent.bind (table.valueOf name)).bind fun x =>
      (displayNumber x 2).map fun shown => (x, shown)

end CellTable

end Spreadsheet
