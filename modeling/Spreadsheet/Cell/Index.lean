import Spreadsheet.Address.Notation
import Spreadsheet.Cell.Content

namespace Spreadsheet

/-- A caller's cells by name, in the caller's order. -/
abbrev CellTable := List (CellName × RawCell)

namespace CellTable

/-- Changes the content under a name in place; a new name goes last. -/
def set (table : CellTable) (name : CellName) (raw : RawCell) : CellTable :=
  if table.any (·.1 == name) then table.map fun entry => if entry.1 == name then (name, raw) else entry
  else table ++ [(name, raw)]

def erase (table : CellTable) (name : CellName) : CellTable := table.filter (·.1 != name)

end CellTable

/-- The content of each cell that is not empty, in the order of the table. -/
abbrev CellIndex := List (Coordinate × CellContent)

namespace CellIndex

def get? (index : CellIndex) (c : Coordinate) : Option CellContent := List.lookup c index

theorem mem_of_get? {index : CellIndex} {c : Coordinate} {content : CellContent}
    (h : index.get? c = some content) : (c, content) ∈ index := by
  induction index with
  | nil => cases h
  | cons entry index ih =>
    obtain ⟨key, value⟩ := entry
    unfold get? at h ih
    by_cases same : c == key
    · simp only [List.lookup_cons, same] at h
      cases h
      rw [eq_of_beq same]
      exact List.mem_cons_self
    · simp only [List.lookup_cons, same] at h
      exact List.mem_cons_of_mem _ (ih h)

/-- Fewer cells have a stronger property, if one of them loses it. -/
theorem countP_lt {index : CellIndex} {p q : Coordinate × CellContent → Bool}
    (imp : ∀ x, p x → q x) {x : Coordinate × CellContent} (mem : x ∈ index) (hq : q x = true)
    (hp : p x = false) : index.countP p < index.countP q := by
  induction index with
  | nil => cases mem
  | cons y l ih =>
    have tail := List.countP_mono_left (l := l) (fun x _ => imp x)
    simp only [List.countP_cons]
    rcases List.mem_cons.mp mem with rfl | mem
    · rw [if_pos hq, if_neg (by simp [hp])]
      omega
    · have less := ih mem
      have head : (if p y then 1 else 0) ≤ (if q y then 1 else 0) := by
        by_cases holds : p y
        · simp [holds, imp y holds]
        · simp [holds]
      omega

/-- The failure of a second name for a cell. An address is shown with both of its numbers. -/
def repeated (name : CellName) : Failure :=
  match name with
  | .text _ => .repeatedCell name
  | .address a => .naming a.column (.naming a.row (.repeatedCell name))

/-- Adds one cell of a table. A second name for a cell is a failure. -/
def add (index : CellIndex) (name : CellName) (raw : RawCell) : Except Failure CellIndex :=
  match name.toAddress with
  | .error e => .error e
  | .ok a =>
    if (index.get? a.coordinate).isSome then .error (repeated name)
    else raw.toContent.map fun content => index ++ [(a.coordinate, content)]

def addAll (index : CellIndex) : CellTable → Except Failure CellIndex
  | [] => .ok index
  | (name, raw) :: table => (index.add name raw).bind (addAll · table)

def ofTable (table : CellTable) : Except Failure CellIndex := addAll [] table

end CellIndex

end Spreadsheet
