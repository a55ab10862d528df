import Spreadsheet.Failure

namespace Spreadsheet

/-- The addresses whose formulas are being resolved, the first one first, and the set of their
    cells. -/
structure CallStack where
  entries : List Address
  keys : List Coordinate
deriving DecidableEq

namespace CallStack

def empty : CallStack := ⟨[], []⟩

def length (s : CallStack) : Nat := s.entries.length

def push (s : CallStack) (a : Address) : CallStack :=
  ⟨s.entries ++ [a], if s.keys.contains a.coordinate then s.keys else s.keys ++ [a.coordinate]⟩

/-- Drops the last address, and its cell from the set. -/
def pop (s : CallStack) : Except Failure CallStack :=
  match s.entries.getLast? with
  | none => .error .emptyStack
  | some a => .ok ⟨s.entries.dropLast, s.keys.erase a.coordinate⟩

def contains (s : CallStack) (a : Address) : Bool := s.keys.contains a.coordinate

/-- The cells from the first one that is the cell of `a` on, and that cell again. -/
def cyclePath (s : CallStack) (a : Address) : Except Failure (List Coordinate) :=
  match s.entries.dropWhile (·.coordinate != a.coordinate) with
  | [] => .error .notOnStack
  | path => .ok (path.map Address.coordinate ++ [a.coordinate])

def ofCurrent : Option Address → CallStack
  | none => empty
  | some a => empty.push a

/-- Every cell is on the stack once, and the set holds just the cells of the stack. -/
def Mirrored (s : CallStack) : Prop :=
  s.keys = s.entries.map Address.coordinate ∧ s.keys.Nodup

theorem Mirrored.empty : empty.Mirrored := ⟨rfl, List.nodup_nil⟩

theorem push_keys {s : CallStack} {a : Address} (absent : s.contains a = false) :
    (s.push a).keys = s.keys ++ [a.coordinate] := by
  have fresh : s.keys.contains a.coordinate = false := absent
  simp only [push, fresh, Bool.false_eq_true, if_false]

theorem Mirrored.push {s : CallStack} {a : Address} (h : s.Mirrored)
    (absent : s.contains a = false) : (s.push a).Mirrored := by
  have fresh : a.coordinate ∉ s.keys := by simpa [contains] using absent
  constructor
  · rw [push_keys absent, h.1]
    simp [CallStack.push]
  · rw [push_keys absent, List.nodup_append]
    refine ⟨h.2, by simp, ?_⟩
    intro x member y single same
    rw [List.mem_singleton.mp single] at same
    exact fresh (same ▸ member)

theorem Mirrored.ofCurrent (current : Option Address) : (ofCurrent current).Mirrored := by
  cases current with
  | none => exact Mirrored.empty
  | some a => exact Mirrored.empty.push rfl

theorem Mirrored.pop {s t : CallStack} (h : s.Mirrored) (popped : s.pop = .ok t) :
    ∃ a, s.entries = t.entries ++ [a] ∧ s.keys = t.keys ++ [a.coordinate] ∧ t.Mirrored := by
  unfold CallStack.pop at popped
  split at popped
  · cases popped
  · rename_i a last
    obtain ⟨front, entries⟩ := List.getLast?_eq_some_iff.mp last
    have keys : s.keys = front.map Address.coordinate ++ [a.coordinate] := by simp [h.1, entries]
    have nodup := h.2
    rw [keys, List.nodup_append] at nodup
    have fresh : a.coordinate ∉ front.map Address.coordinate :=
      fun member => nodup.2.2 _ member _ (List.mem_singleton_self _) rfl
    have erased : s.keys.erase a.coordinate = front.map Address.coordinate := by
      rw [keys, List.erase_append_right _ fresh]
      simp
    have dropped : s.entries.dropLast = front := by simp [entries]
    cases popped
    refine ⟨a, ?_, ?_, ?_, ?_⟩
    · rw [dropped, entries]
    · rw [erased, keys]
    · rw [erased, dropped]
    · rw [erased]
      exact nodup.1

theorem pop_append {s : CallStack} {front : List Address} {a : Address}
    (h : s.entries = front ++ [a]) : ∃ t, s.pop = .ok t ∧ t.entries = front := by
  refine ⟨⟨front, s.keys.erase a.coordinate⟩, ?_, rfl⟩
  simp [pop, h]

end CallStack

end Spreadsheet
