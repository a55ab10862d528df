import Mathlib.Logic.Relation
import Spreadsheet.Proofs.Formula.Evaluation
import Spreadsheet.Proofs.Resolution.Finding

namespace Spreadsheet

/-- The current address is an address of the cell. -/
def StandsAt (current : Option Address) (c : Coordinate) : Prop :=
  current.map Address.coordinate = some c

namespace Memo

variable {memo longer : Memo} {c d : Coordinate} {x : Number}

def Has (memo : Memo) (c : Coordinate) : Prop := (memo.get? c).isSome = true

theorem not_has_iff : ¬ memo.Has c ↔ memo.get? c = none := by
  simp [Has]

theorem has_iff : memo.Has c ↔ ∃ x, memo.get? c = some x := Option.isSome_iff_exists

theorem get?_cons : Memo.get? ((d, x) :: memo) c = if c = d then some x else memo.get? c := by
  unfold get?
  rw [List.lookup_cons]
  by_cases same : c = d
  · simp [same]
  · simp [same, beq_false_of_ne same]

theorem has_cons_iff : Memo.Has ((d, x) :: memo) c ↔ c = d ∨ memo.Has c := by
  unfold Has
  rw [get?_cons]
  by_cases same : c = d <;> simp [same]

def Within (memo longer : Memo) : Prop := ∀ c x, memo.get? c = some x → longer.get? c = some x

theorem Within.has (h : memo.Within longer) (has : memo.Has c) : longer.Has c := by
  obtain ⟨x, found⟩ := Memo.has_iff.mp has
  exact has_iff.mpr ⟨x, h c x found⟩

theorem Within.cons (h : memo.get? c = none) : memo.Within ((c, x) :: memo) := by
  intro d y found
  have other : d ≠ c := by
    intro same
    rw [same, h] at found
    cases found
  rw [get?_cons, if_neg other]
  exact found

theorem Within.cons_cons (h : memo.Within longer) :
    Memo.Within ((c, x) :: memo) ((c, x) :: longer) := by
  intro d y found
  rw [get?_cons] at found ⊢
  by_cases same : d = c
  · rw [if_pos same] at found ⊢
    exact found
  · rw [if_neg same] at found ⊢
    exact h d y found

theorem Within.get? (h : memo.Within longer) (has : memo.Has c) : longer.get? c = memo.get? c := by
  obtain ⟨x, found⟩ := Memo.has_iff.mp has
  rw [found, h c x found]

theorem value_eq {a : Address} (h : memo.get? a.coordinate = longer.get? a.coordinate) :
    memo.value a = longer.value a := by
  unfold value
  rw [h]

theorem value_failsLocally (memo : Memo) (a : Address) : FailsLocally (memo.value a) := by
  unfold value
  split
  · exact .ok _
  · exact .error trivial

end Memo

theorem Expr.mem_coordinates {e : Expr} {c : Coordinate} :
    c ∈ e.coordinates ↔ ∃ r ∈ e.references, r.address.coordinate = c := by
  unfold coordinates cells
  rw [mem_map_distinctCells]
  simp

theorem Expr.eval_memo {e : Expr} {memo other : Memo}
    (same : ∀ c ∈ e.coordinates, memo.get? c = other.get? c) :
    e.eval memo.value = e.eval other.value := by
  apply Expr.eval_congr
  intro r member
  exact Memo.value_eq (same _ (Expr.mem_coordinates.mpr ⟨r, member, rfl⟩))

namespace CellIndex

variable {index : CellIndex} {memo longer : Memo} {c d : Coordinate} {x : Number}

/-- A cell gives a value, if the cells that its formula references have theirs. -/
inductive Gives (index : CellIndex) (memo : Memo) (c : Coordinate) (x : Number) : Prop where
  | own {notes : List Note} (found : index.finding c = .value x notes)
  | formula {e : Expr} (found : index.finding c = .formula e)
      (known : ∀ d ∈ e.coordinates, memo.Has d) (value : (e.eval memo.value).outcome = .ok x)

theorem Gives.mono (within : memo.Within longer) (h : index.Gives memo c x) :
    index.Gives longer c x := by
  cases h with
  | own found => exact .own found
  | @formula e found known value =>
    have same : e.eval longer.value = e.eval memo.value :=
      Expr.eval_memo fun d member => within.get? (known d member)
    exact .formula found (fun d member => within.has (known d member)) (same ▸ value)

theorem references_iff {e : Expr} (found : index.finding c = .formula e) :
    index.References c d ↔ d ∈ e.coordinates := by
  have here := expr?_eq_some_iff.mpr found
  constructor
  · rintro ⟨e', found', member⟩
    rw [here] at found'
    cases found'
    exact member
  · intro member
    exact ⟨e, here, member⟩

theorem Gives.closed (h : index.Gives memo c x) (edge : index.References c d) : memo.Has d := by
  cases h with
  | own found =>
    obtain ⟨e, here, _⟩ := edge
    rw [expr?_eq_some_iff, found] at here
    cases here
  | formula found known _ => exact known d ((references_iff found).mp edge)

theorem Gives.finding_ne_failure {f : Failure} (h : index.Gives memo c x) :
    index.finding c ≠ .failure f := by
  cases h with
  | own found =>
    rw [found]
    nofun
  | formula found _ _ =>
    rw [found]
    nofun

/-- The values of a memo, the last one first: each cell gives its value after the cells before it,
    and the current address is none of them. -/
inductive Sound (index : CellIndex) (current : Option Address) : Memo → Prop where
  | nil : Sound index current []
  | cons {memo : Memo} {c : Coordinate} {x : Number} (earlier : Sound index current memo)
      (fresh : ¬ memo.Has c) (away : ¬ StandsAt current c) (gives : index.Gives memo c x) :
      Sound index current ((c, x) :: memo)

namespace Sound

variable {current : Option Address}

theorem away (h : index.Sound current memo) (has : memo.Has c) : ¬ StandsAt current c := by
  induction h with
  | nil => cases has
  | cons _ _ away _ ih =>
    rcases Memo.has_cons_iff.mp has with rfl | has
    · exact away
    · exact ih has

theorem gives (h : index.Sound current memo) (found : memo.get? c = some x) :
    index.Gives memo c x := by
  induction h with
  | nil => cases found
  | @cons memo d y earlier fresh away gives ih =>
    have within : memo.Within ((d, y) :: memo) := .cons (Memo.not_has_iff.mp fresh)
    rw [Memo.get?_cons] at found
    by_cases same : c = d
    · rw [if_pos same] at found
      cases found
      rw [same]
      exact gives.mono within
    · rw [if_neg same] at found
      exact (ih found).mono within

theorem closed (h : index.Sound current memo) (has : memo.Has c) (edge : index.References c d) :
    memo.Has d := by
  obtain ⟨x, found⟩ := Memo.has_iff.mp has
  exact (h.gives found).closed edge

theorem closed_trans (h : index.Sound current memo) (has : memo.Has c)
    (reached : Relation.TransGen index.References c d) : memo.Has d := by
  induction reached with
  | single edge => exact h.closed has edge
  | tail _ edge ih => exact h.closed ih edge

/-- A cell references only cells with earlier values, and so none with a value is on a cycle. -/
theorem acyclic (h : index.Sound current memo) (has : memo.Has c) :
    ¬ Relation.TransGen index.References c c := by
  induction h with
  | nil => cases has
  | @cons memo d y earlier fresh away gives ih =>
    intro loop
    rcases Memo.has_cons_iff.mp has with rfl | has
    · obtain ⟨b, edge, back⟩ := Relation.TransGen.head'_iff.mp loop
      have before : memo.Has b := gives.closed edge
      rcases Relation.reflTransGen_iff_eq_or_transGen.mp back with rfl | back
      · exact fresh before
      · exact fresh (earlier.closed_trans before back)
    · exact ih has loop

end Sound

variable {path : List Address}

theorem directAll_of_memo {as : List Address}
    (known : ∀ a ∈ as, ∃ x, memo.get? a.coordinate = some x ∧ index.directCell path a = .ok x) :
    ∃ values, index.directAll path as = .ok values ∧
      ∀ a ∈ as, Memo.get? values a.coordinate = memo.get? a.coordinate := by
  induction as with
  | nil => exact ⟨[], by rw [directAll], nofun⟩
  | cons a as ih =>
    obtain ⟨values, all, same⟩ := ih fun b member => known b (List.mem_cons_of_mem _ member)
    obtain ⟨x, found, value⟩ := known a List.mem_cons_self
    refine ⟨(a.coordinate, x) :: values, ?_, ?_⟩
    · rw [directAll, value, all]
      rfl
    · intro b member
      rw [Memo.get?_cons]
      by_cases here : b.coordinate = a.coordinate
      · rw [if_pos here, here, found]
      · rw [if_neg here]
        rcases List.mem_cons.mp member with rfl | member
        · exact absurd rfl here
        · exact same b member

theorem directAll_error {passed : List Address} {b : Address} {f : Failure}
    (known : ∀ a ∈ passed, ∃ x, index.directCell path a = .ok x)
    (failed : index.directCell path b = .error f) (rest : List Address) :
    index.directAll path (passed ++ b :: rest) = .error f := by
  induction passed with
  | nil =>
    rw [List.nil_append, directAll, failed]
    rfl
  | cons a passed ih =>
    obtain ⟨x, value⟩ := known a List.mem_cons_self
    have later := ih fun b member => known b (List.mem_cons_of_mem _ member)
    rw [List.cons_append, directAll, value, later]
    rfl

theorem direct_of_memo {e : Expr}
    (known : ∀ a ∈ e.cells, ∃ x, memo.get? a.coordinate = some x ∧
      index.directCell path a = .ok x) :
    index.direct path e = (e.eval memo.value).outcome := by
  obtain ⟨values, all, same⟩ := directAll_of_memo known
  have agree : e.eval (Memo.value values) = e.eval memo.value := by
    apply Expr.eval_memo
    intro c member
    obtain ⟨a, cell, rfl⟩ := List.mem_map.mp member
    exact same a cell
  rw [direct, all]
  exact congrArg Reading.outcome agree

/-- Off the path, the value that a sound memo holds for a cell is the one that is found without any
    memo. A cell that is looked up on the way comes earlier in the memo. -/
theorem Sound.directCell {current : Option Address} {a : Address}
    (h : index.Sound current memo) (off : ∀ b ∈ path, ¬ memo.Has b.coordinate)
    (found : memo.get? a.coordinate = some x) : index.directCell path a = .ok x := by
  induction h generalizing path a x with
  | nil => cases found
  | @cons memo d y earlier fresh away gives ih =>
    have offEarlier : ∀ b ∈ path, ¬ memo.Has b.coordinate :=
      fun b member has => off b member (Memo.has_cons_iff.mpr (.inr has))
    rw [Memo.get?_cons] at found
    by_cases here : a.coordinate = d
    · rw [if_pos here] at found
      cases found
      have absent : a.coordinate ∉ path.map Address.coordinate := by
        intro member
        obtain ⟨b, member, same⟩ := List.mem_map.mp member
        exact off b member (Memo.has_cons_iff.mpr (.inl (same.trans here)))
      rw [directCell_of_not_mem absent, here]
      cases gives with
      | own found => rw [found]
      | formula found known value =>
        rw [found, ← value]
        apply direct_of_memo
        -- The references of the formula have earlier values, and its own cell has none among them,
        -- so the path may be extended by it.
        intro b member
        have has := known b.coordinate (List.mem_map_of_mem member)
        obtain ⟨z, found⟩ := Memo.has_iff.mp has
        refine ⟨z, found, ih ?_ found⟩
        intro p member
        rcases List.mem_append.mp member with member | last
        · exact offEarlier p member
        · rw [List.mem_singleton.mp last, here]
          exact fresh
    · rw [if_neg here] at found
      exact ih offEarlier found

end CellIndex

end Spreadsheet
