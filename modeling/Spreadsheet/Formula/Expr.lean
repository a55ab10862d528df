import Spreadsheet.Address.Basic
import Spreadsheet.Token.Basic

namespace Spreadsheet

/-- The sign in front of an operand. One that is neither plus nor minus changes nothing. -/
inductive Sign where
  | plus
  | minus
  | other (symbol : String)
deriving DecidableEq

inductive BinaryOp where
  | add
  | subtract
  | multiply
  | divide
  | power
  | equal
  | notEqual
  | less
  | greater
  | lessEqual
  | greaterEqual
  | other (symbol : String)
deriving DecidableEq

namespace Sign

def symbol : Sign → String
  | plus => "+"
  | minus => "-"
  | other s => s

def ofSymbol : String → Sign
  | "+" => plus
  | "-" => minus
  | s => other s

end Sign

namespace BinaryOp

def symbol : BinaryOp → String
  | add => "+"
  | subtract => "-"
  | multiply => "*"
  | divide => "/"
  | power => "^"
  | equal => "="
  | notEqual => "<>"
  | less => "<"
  | greater => ">"
  | lessEqual => "<="
  | greaterEqual => ">="
  | other s => s

def ofSymbol : String → BinaryOp
  | "+" => add
  | "-" => subtract
  | "*" => multiply
  | "/" => divide
  | "^" => power
  | "=" => equal
  | "<>" => notEqual
  | "<" => less
  | ">" => greater
  | "<=" => lessEqual
  | ">=" => greaterEqual
  | s => other s

end BinaryOp

/-- A reference of a formula: the cell it names, and its spelling. -/
structure Reference where
  address : Address
  text : String
deriving DecidableEq

inductive Expr where
  | const (value : Float)
  | ref (reference : Reference)
  | percent (operand : Expr)
  | unary (sign : Sign) (operand : Expr)
  | binary (op : BinaryOp) (left right : Expr)
  | call (name : String) (arguments : List Expr)

namespace Expr

mutual

/-- The references of an expression, left to right. -/
def references : Expr → List Reference
  | const _ => []
  | ref r => [r]
  | percent e => e.references
  | unary _ e => e.references
  | binary _ l r => l.references ++ r.references
  | call _ es => referencesOfAll es

def referencesOfAll : List Expr → List Reference
  | [] => []
  | e :: es => e.references ++ referencesOfAll es

end

mutual

/-- The expression with each reference changed in its place. -/
def mapReferences (f : Reference → Reference) : Expr → Expr
  | const x => const x
  | ref r => ref (f r)
  | percent e => percent (e.mapReferences f)
  | unary s e => unary s (e.mapReferences f)
  | binary op l r => binary op (l.mapReferences f) (r.mapReferences f)
  | call name es => call name (mapReferencesOfAll f es)

def mapReferencesOfAll (f : Reference → Reference) : List Expr → List Expr
  | [] => []
  | e :: es => e.mapReferences f :: mapReferencesOfAll f es

end

/-- The expression without the spelling of its references. -/
def unspelled (e : Expr) : Expr := e.mapReferences fun r => ⟨r.address, ""⟩

mutual

theorem references_mapReferences (f : Reference → Reference) (e : Expr) :
    (e.mapReferences f).references = e.references.map f := by
  cases e with
  | const _ => rfl
  | ref _ => rfl
  | percent e => exact references_mapReferences f e
  | unary _ e => exact references_mapReferences f e
  | binary _ l r =>
    simp only [mapReferences, references, List.map_append]
    rw [references_mapReferences f l, references_mapReferences f r]
  | call _ es => exact referencesOfAll_mapReferencesOfAll f es

theorem referencesOfAll_mapReferencesOfAll (f : Reference → Reference) (es : List Expr) :
    referencesOfAll (mapReferencesOfAll f es) = (referencesOfAll es).map f := by
  cases es with
  | nil => rfl
  | cons e es =>
    simp only [mapReferencesOfAll, referencesOfAll, List.map_append]
    rw [references_mapReferences f e, referencesOfAll_mapReferencesOfAll f es]

end

/-- The addresses of a list, without those of a cell that stands earlier in it. -/
def distinctCells : List Address → List Address
  | [] => []
  | a :: as => a :: (distinctCells as).filter (·.coordinate != a.coordinate)

/-- The distinct cells that an expression references, in order of first appearance. -/
def cells (e : Expr) : List Address := distinctCells (e.references.map (·.address))

def coordinates (e : Expr) : List Coordinate := e.cells.map Address.coordinate

/-- Every cell of a list is among the distinct ones. -/
theorem mem_map_distinctCells {c : Coordinate} {as : List Address} :
    c ∈ (distinctCells as).map Address.coordinate ↔ c ∈ as.map Address.coordinate := by
  induction as with
  | nil => exact Iff.rfl
  | cons b as ih =>
    simp only [distinctCells, List.map_cons, List.mem_cons, ← ih]
    by_cases same : c = b.coordinate
    · simp [same]
    · simp only [same, false_or, List.mem_map, List.mem_filter]
      constructor
      · rintro ⟨a, ⟨member, _⟩, rfl⟩
        exact ⟨a, member, rfl⟩
      · rintro ⟨a, member, rfl⟩
        exact ⟨a, ⟨member, by simpa using same⟩, rfl⟩

end Expr

end Spreadsheet
