import Mathlib.Data.List.Forall2
import Spreadsheet.Proofs.Formula.Finite
import Spreadsheet.Proofs.Resolution.Memo

namespace Spreadsheet

variable {m : Coordinate → Coordinate} {f : Reference → Reference} {index other : CellIndex}
  {path path' as bs : List Address} {a b : Address} {e : Expr}

/-- The failure after cells have new names. Only a failure of how cells depend on each other names
    any of them. -/
def Failure.renamed (m : Coordinate → Coordinate) : Failure → Failure
  | .circular cycle => .circular (cycle.map m)
  | .tooDeep limit c => .tooDeep limit (m c)
  | f => f

theorem Failure.IsLocal.renamed {f : Failure} (h : f.IsLocal) (m : Coordinate → Coordinate) :
    f.renamed m = f := by
  cases f with
  | circular | tooDeep => cases h
  | _ => rfl

theorem FailsLocally.renamed {α : Type} {x : Except Failure α} (h : FailsLocally x)
    (m : Coordinate → Coordinate) : x.mapError (Failure.renamed m) = x := by
  cases x with
  | error f => exact congrArg Except.error ((h f rfl).renamed m)
  | ok x => rfl

/-- An address of the cell of another one under its new name. -/
def Address.Renamed (m : Coordinate → Coordinate) (a b : Address) : Prop :=
  b.coordinate = m a.coordinate

namespace Memo

variable {memo : Memo} {c : Coordinate}

def renamed (m : Coordinate → Coordinate) (memo : Memo) : Memo := memo.map fun (c, x) => (m c, x)

theorem get?_renamed (injective : Function.Injective m) :
    (memo.renamed m).get? (m c) = memo.get? c := by
  induction memo with
  | nil => rfl
  | cons entry memo ih =>
    obtain ⟨d, x⟩ := entry
    have cons : renamed m ((d, x) :: memo) = (m d, x) :: renamed m memo := rfl
    rw [cons, get?_cons, get?_cons, ih]
    simp only [injective.eq_iff]

theorem value_renamed (injective : Function.Injective m) (renamed : a.Renamed m b)
    (has : memo.Has a.coordinate) : (memo.renamed m).value b = memo.value a := by
  obtain ⟨x, found⟩ := has_iff.mp has
  unfold value
  rw [renamed, get?_renamed injective, found]

end Memo

namespace Expr

theorem distinctCells_renamed (injective : Function.Injective m)
    (renamed : as.Forall₂ (Address.Renamed m) bs) :
    (distinctCells as).Forall₂ (Address.Renamed m) (distinctCells bs) := by
  induction renamed with
  | nil => exact .nil
  | cons first _ ih =>
    refine .cons first (List.rel_filter ?_ ih)
    intro a b same
    have first' : _ = m _ := first
    have same' : b.coordinate = m a.coordinate := same
    simp only [bne_iff_ne, first', same', injective.ne_iff]

theorem cells_renamed (injective : Function.Injective m)
    (renamed : ∀ r ∈ e.references, r.address.Renamed m (f r).address) :
    e.cells.Forall₂ (Address.Renamed m) (e.mapReferences f).cells := by
  refine distinctCells_renamed injective ?_
  rw [references_mapReferences, List.map_map, List.forall₂_map_left_iff,
    List.forall₂_map_right_iff, List.forall₂_same]
  exact renamed

end Expr

namespace CellIndex

theorem closedPath_eq (path : List Address) (a : Address) :
    closedPath path a =
      (path.map Address.coordinate).dropWhile (· != a.coordinate) ++ [a.coordinate] := by
  rw [closedPath, List.dropWhile_map]
  rfl

theorem closedPath_renamed (injective : Function.Injective m)
    (paths : path'.map Address.coordinate = (path.map Address.coordinate).map m)
    (renamed : a.Renamed m b) : closedPath path' b = (closedPath path a).map m := by
  have mark : (fun c => c != m a.coordinate) ∘ m = fun c => c != a.coordinate := by
    funext c
    exact Bool.eq_iff_iff.mpr (by simp [injective.eq_iff])
  rw [closedPath_eq, closedPath_eq, paths, renamed, List.dropWhile_map, mark, List.map_append,
    List.map_singleton]

theorem offPath_lt (found : index.finding a.coordinate = .formula e)
    (absent : a.coordinate ∉ path.map Address.coordinate) :
    index.offPath (path ++ [a]) < index.offPath path := by
  have here := expr?_eq_some_iff.mpr found
  obtain ⟨content, holds, formula⟩ := Option.bind_eq_some_iff.mp here
  obtain ⟨body, text, -⟩ := Option.bind_eq_some_iff.mp formula
  exact offPath_append_lt holds text (by simpa using absent)

theorem get?_of_directAll {values : Memo} (found : index.directAll path as = .ok values) :
    ∀ a ∈ as, ∃ b ∈ as, ∃ x, b.coordinate = a.coordinate ∧ index.directCell path b = .ok x ∧
      values.get? a.coordinate = some x := by
  induction as generalizing values with
  | nil => exact nofun
  | cons c as ih =>
    rw [directAll] at found
    obtain ⟨y, first, rest⟩ := Except.bind_eq_ok found
    obtain ⟨others, later, rfl⟩ := Except.map_eq_ok rest
    intro a member
    by_cases here : a.coordinate = c.coordinate
    · refine ⟨c, List.mem_cons_self, y, here.symm, first, ?_⟩
      rw [Memo.get?_cons, if_pos here]
    · rcases List.mem_cons.mp member with rfl | member
      · exact absurd rfl here
      · obtain ⟨b, among, x, same, value, stored⟩ := ih later a member
        refine ⟨b, List.mem_cons_of_mem _ among, x, same, value, ?_⟩
        rw [Memo.get?_cons, if_neg here, stored]

theorem directAll_renamed (cells : as.Forall₂ (Address.Renamed m) bs)
    (each : ∀ a b, a.Renamed m b →
      other.directCell path' b = (index.directCell path a).mapError (Failure.renamed m)) :
    other.directAll path' bs =
      ((index.directAll path as).map (Memo.renamed m)).mapError (Failure.renamed m) := by
  induction cells with
  | nil =>
    rw [directAll, directAll]
    rfl
  | @cons a b as bs first _ ih =>
    rw [directAll, directAll, each a b first, ih]
    cases index.directCell path a with
    | error g => rfl
    | ok x =>
      cases index.directAll path as with
      | error g => rfl
      | ok values => exact congrArg (fun c => Except.ok ((c, x) :: _)) first

theorem append_renamed (paths : path'.map Address.coordinate = (path.map Address.coordinate).map m)
    (renamed : a.Renamed m b) :
    (path' ++ [b]).map Address.coordinate = ((path ++ [a]).map Address.coordinate).map m := by
  have last : b.coordinate = m a.coordinate := renamed
  simp only [List.map_append, List.map_singleton, paths, last]

/-- What a look into a cell finds after the cells have new names. -/
inductive FindingRenamed (m : Coordinate → Coordinate) (f : Reference → Reference) :
    Finding → Finding → Prop where
  | value (x : Number) (notes notes' : List Note) :
      FindingRenamed m f (.value x notes) (.value x notes')
  | formula {e : Expr} (references : ∀ r ∈ e.references, r.address.Renamed m (f r).address) :
      FindingRenamed m f (.formula e) (.formula (e.mapReferences f))
  | failure {g : Failure} (isLocal : g.IsLocal) : FindingRenamed m f (.failure g) (.failure g)

/-- The cells of the second index are those of the first one under new names, and their formulas
    have the new names in place of the old ones. -/
structure Renames (m : Coordinate → Coordinate) (f : Reference → Reference)
    (index other : CellIndex) : Prop where
  injective : Function.Injective m
  finding : ∀ c, FindingRenamed m f (index.finding c) (other.finding (m c))

namespace Renames

variable (h : Renames m f index other)

include h

theorem direct_of_cells (references : ∀ r ∈ e.references, r.address.Renamed m (f r).address)
    (each : ∀ a b, a.Renamed m b →
      other.directCell path' b = (index.directCell path a).mapError (Failure.renamed m)) :
    other.direct path' (e.mapReferences f) =
      (index.direct path e).mapError (Failure.renamed m) := by
  rw [CellIndex.direct, CellIndex.direct,
    directAll_renamed (Expr.cells_renamed h.injective references) each]
  cases found : index.directAll path e.cells with
  | error g => rfl
  | ok values =>
    have fails : FailsLocally (e.eval values.value).outcome :=
      Expr.eval_failsLocally values.value_failsLocally e
    refine Eq.trans ?_ (fails.renamed m).symm
    refine Expr.outcome_eval_mapReferences e fun r member => ?_
    refine Memo.value_renamed h.injective (references r member) ?_
    obtain ⟨a, cell, same⟩ := List.mem_map.mp (Expr.mem_coordinates.mpr ⟨r, member, rfl⟩)
    obtain ⟨b, -, x, -, -, stored⟩ := get?_of_directAll found a cell
    exact Memo.has_iff.mpr ⟨x, same ▸ stored⟩

theorem references {c : Coordinate} (found : index.finding c = .formula e) :
    ∀ r ∈ e.references, r.address.Renamed m (f r).address := by
  have look := h.finding c
  rw [found] at look
  generalize other.finding (m c) = found' at look
  cases look with
  | formula references => exact references

theorem directCell_of_direct
    (paths : path'.map Address.coordinate = (path.map Address.coordinate).map m)
    (renamed : a.Renamed m b)
    (inner : ∀ e, index.finding a.coordinate = .formula e →
      a.coordinate ∉ path.map Address.coordinate →
      other.direct (path' ++ [b]) (e.mapReferences f) =
        (index.direct (path ++ [a]) e).mapError (Failure.renamed m)) :
    other.directCell path' b = (index.directCell path a).mapError (Failure.renamed m) := by
  have member : b.coordinate ∈ path'.map Address.coordinate ↔
      a.coordinate ∈ path.map Address.coordinate := by
    rw [paths, renamed, List.mem_map_of_injective h.injective]
  by_cases on : a.coordinate ∈ path.map Address.coordinate
  · rw [directCell_of_mem on, directCell_of_mem (member.mpr on),
      closedPath_renamed h.injective paths renamed]
    rfl
  · rw [directCell_of_not_mem on, directCell_of_not_mem fun on' => on (member.mp on'), renamed]
    have look := h.finding a.coordinate
    generalize here : index.finding a.coordinate = found at look
    generalize other.finding (m a.coordinate) = found' at look
    cases look with
    | value x notes notes' => rfl
    | formula references => exact inner _ here on
    | failure isLocal => exact congrArg Except.error (isLocal.renamed m).symm

/-- An expression with new names in place of the old ones comes to what it came to before, and a
    cycle to the same cycle under the new names. -/
theorem direct (paths : path'.map Address.coordinate = (path.map Address.coordinate).map m)
    (references : ∀ r ∈ e.references, r.address.Renamed m (f r).address) :
    other.direct path' (e.mapReferences f) =
      (index.direct path e).mapError (Failure.renamed m) := by
  induction size : index.offPath path using Nat.strongRecOn generalizing path path' e with
  | ind n ih =>
    refine h.direct_of_cells references fun a b renamed => ?_
    refine h.directCell_of_direct paths renamed fun e' found absent => ?_
    exact ih _ (size ▸ offPath_lt found absent) (append_renamed paths renamed)
      (h.references found) rfl

theorem directCell (paths : path'.map Address.coordinate = (path.map Address.coordinate).map m)
    (renamed : a.Renamed m b) :
    other.directCell path' b = (index.directCell path a).mapError (Failure.renamed m) := by
  exact h.directCell_of_direct paths renamed fun e found _ =>
    h.direct (append_renamed paths renamed) (h.references found)

end Renames

end CellIndex

end Spreadsheet
