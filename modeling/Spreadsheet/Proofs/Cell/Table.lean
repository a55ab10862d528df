import Mathlib.Data.List.Nodup
import Mathlib.Data.List.Perm.Basic
import Spreadsheet.Cell.Index
import Spreadsheet.Proofs.Formula.Evaluation

namespace Spreadsheet

variable {table table' : CellTable} {index index' : CellIndex} {name : CellName} {raw : RawCell}
  {c : Coordinate} {content : CellContent}

/-- The cell that an entry of a table names, with what it holds. -/
def CellTable.cell? (entry : CellName × RawCell) : Except Failure (Coordinate × CellContent) :=
  entry.1.toAddress.bind fun a => entry.2.toContent.map fun content => (a.coordinate, content)

theorem CellTable.cell?_eq_ok {entry : CellName × RawCell} {cell : Coordinate × CellContent} :
    cell? entry = .ok cell ↔
      ∃ a, entry.1.toAddress = .ok a ∧ entry.2.toContent = .ok cell.2 ∧ cell.1 = a.coordinate := by
  constructor
  · intro found
    obtain ⟨a, named, held⟩ := Except.bind_eq_ok found
    obtain ⟨content, holds, rfl⟩ := Except.map_eq_ok held
    exact ⟨a, named, holds, rfl⟩
  · obtain ⟨c, content⟩ := cell
    rintro ⟨a, named, held, rfl⟩
    rw [cell?, named]
    simp only [Except.bind, held]
    rfl

/-- Two entries of a table do not name the same cell. -/
def CellTable.Apart (x y : CellName × RawCell) : Prop :=
  ∀ a b, x.1.toAddress = .ok a → y.1.toAddress = .ok b → a.coordinate ≠ b.coordinate

/-- Two outcomes are not the same cell. -/
def CellTable.Differ (x y : Except Failure (Coordinate × CellContent)) : Prop :=
  ∀ c d, x = .ok c → y = .ok d → c.1 ≠ d.1

theorem CellTable.differ_ok_iff {x y : Coordinate × CellContent} :
    Differ (.ok x) (.ok y) ↔ x.1 ≠ y.1 := by
  refine ⟨fun differ => differ x y rfl rfl, ?_⟩
  rintro other _ _ ⟨⟩ ⟨⟩
  exact other

theorem CellTable.differ_cell?_iff {x y : CellName × RawCell} {c d : Coordinate × CellContent}
    (here : cell? x = .ok c) (there : cell? y = .ok d) :
    Differ (cell? x) (cell? y) ↔ Apart x y := by
  rw [here, there, differ_ok_iff]
  obtain ⟨a, named, -, first⟩ := cell?_eq_ok.mp here
  obtain ⟨b, named', -, second⟩ := cell?_eq_ok.mp there
  rw [first, second]
  constructor
  · intro other a' b' same same'
    rw [named] at same
    rw [named'] at same'
    cases same
    cases same'
    exact other
  · exact fun apart => apart a b named named'

theorem Except.exists_map_ok {ε α : Type} {xs : List (Except ε α)}
    (all : ∀ x ∈ xs, ∃ a, x = .ok a) : ∃ as : List α, xs = as.map .ok := by
  induction xs with
  | nil => exact ⟨[], rfl⟩
  | cons x xs ih =>
    obtain ⟨⟨a, rfl⟩, others⟩ := List.forall_mem_cons.mp all
    obtain ⟨as, rfl⟩ := ih others
    exact ⟨a :: as, rfl⟩

namespace CellIndex

open CellTable

theorem get?_eq_none_iff : index.get? c = none ↔ c ∉ index.map Prod.fst := by
  unfold get?
  rw [List.lookup_eq_none_iff, List.mem_map]
  constructor
  · rintro other ⟨entry, member, rfl⟩
    simpa using other entry member
  · intro absent entry member
    simpa using fun same : c = entry.1 => absent ⟨entry, member, same.symm⟩

theorem get?_eq_some_iff (distinct : (index.map Prod.fst).Nodup) :
    index.get? c = some content ↔ (c, content) ∈ index := by
  refine ⟨mem_of_get?, fun member => ?_⟩
  obtain ⟨before, after, rfl⟩ := List.append_of_mem member
  rw [List.map_append, List.map_cons, List.nodup_append] at distinct
  unfold get?
  refine List.lookup_eq_some_iff.mpr ⟨before, after, rfl, fun entry earlier => ?_⟩
  have other := distinct.2.2 _ (List.mem_map_of_mem earlier) c List.mem_cons_self
  simpa using fun same : c = entry.1 => other same.symm

theorem add_eq_ok_iff :
    index.add name raw = .ok index' ↔
      ∃ cell, cell? (name, raw) = .ok cell ∧ cell.1 ∉ index.map Prod.fst ∧
        index' = index ++ [cell] := by
  unfold add
  constructor
  · intro added
    split at added
    · cases added
    · rename_i a named
      split at added
      · cases added
      · rename_i free
        obtain ⟨content, held, rfl⟩ := Except.map_eq_ok added
        refine ⟨_, cell?_eq_ok.mpr ⟨a, named, held, rfl⟩, ?_, rfl⟩
        exact get?_eq_none_iff.mp (by simpa using free)
  · rintro ⟨⟨c, content⟩, found, absent, rfl⟩
    obtain ⟨a, named, held, rfl⟩ := cell?_eq_ok.mp found
    have free : (index.get? a.coordinate).isSome = false := by
      rw [get?_eq_none_iff.mpr absent]
      rfl
    simp only [named, free, held]
    rfl

theorem addAll_eq_ok_iff (distinct : (index.map Prod.fst).Nodup) :
    index.addAll table = .ok index' ↔
      ∃ cells, table.map cell? = cells.map .ok ∧ index' = index ++ cells ∧
        (index'.map Prod.fst).Nodup := by
  induction table generalizing index with
  | nil =>
    constructor
    · intro added
      cases added
      exact ⟨[], rfl, (List.append_nil _).symm, distinct⟩
    · rintro ⟨cells, none, rfl, -⟩
      rw [List.map_eq_nil_iff.mp none.symm, List.append_nil]
      rfl
  | cons entry table ih =>
    obtain ⟨name, raw⟩ := entry
    have longer : ∀ cell : Coordinate × CellContent, cell.1 ∉ index.map Prod.fst →
        ((index ++ [cell]).map Prod.fst).Nodup := by
      intro cell absent
      rw [List.map_append, List.map_singleton]
      exact List.nodup_append_comm.mp (List.nodup_cons.mpr ⟨absent, distinct⟩)
    constructor
    · intro added
      obtain ⟨next, first, rest⟩ := Except.bind_eq_ok added
      obtain ⟨cell, named, absent, rfl⟩ := add_eq_ok_iff.mp first
      obtain ⟨cells, others, rfl, nodup⟩ := (ih (longer cell absent)).mp rest
      refine ⟨cell :: cells, ?_, by simp, nodup⟩
      rw [List.map_cons, List.map_cons, named, others]
    · rintro ⟨cells, all, rfl, nodup⟩
      cases cells with
      | nil => cases all
      | cons cell cells =>
        rw [List.map_cons, List.map_cons, List.cons.injEq] at all
        have absent : cell.1 ∉ index.map Prod.fst := by
          rw [List.map_append, List.map_cons, List.nodup_append] at nodup
          exact fun member => nodup.2.2 _ member _ List.mem_cons_self rfl
        have first := add_eq_ok_iff.mpr ⟨cell, all.1, absent, rfl⟩
        have rest := (ih (longer cell absent)).mpr ⟨cells, all.2, by simp, nodup⟩
        rw [addAll, first]
        exact rest

/-- A table is indexed just if each name is one of a cell and no cell has two. The index holds the
    cells in the order of the table. -/
theorem ofTable_eq_ok_iff :
    ofTable table = .ok index ↔
      table.map cell? = index.map .ok ∧ (index.map Prod.fst).Nodup := by
  have empty : (List.map Prod.fst ([] : CellIndex)).Nodup := List.nodup_nil
  unfold ofTable
  rw [addAll_eq_ok_iff empty]
  constructor
  · rintro ⟨cells, all, rfl, nodup⟩
    exact ⟨all, nodup⟩
  · rintro ⟨all, nodup⟩
    exact ⟨index, all, rfl, nodup⟩

theorem get?_ofTable (indexed : ofTable table = .ok index) :
    index.get? c = some content ↔ ∃ entry ∈ table, cell? entry = .ok (c, content) := by
  obtain ⟨all, distinct⟩ := ofTable_eq_ok_iff.mp indexed
  rw [get?_eq_some_iff distinct, ← List.mem_map, all]
  simp

theorem toContent_ofTable (indexed : ofTable table = .ok index) :
    table.map (·.2.toContent) = (index.map Prod.snd).map .ok := by
  obtain ⟨all, -⟩ := ofTable_eq_ok_iff.mp indexed
  clear indexed
  induction table generalizing index with
  | nil =>
    rw [List.map_eq_nil_iff.mp all.symm]
    rfl
  | cons entry table ih =>
    cases index with
    | nil => cases all
    | cons cell index =>
      rw [List.map_cons, List.map_cons, List.cons.injEq] at all
      obtain ⟨a, -, held, -⟩ := cell?_eq_ok.mp all.1
      rw [List.map_cons, List.map_cons, List.map_cons, held, ih all.2]

theorem countP_isFormula_ofTable (indexed : ofTable table = .ok index) :
    index.countP (·.2.isFormula) = table.countP (·.2.isFormula) := by
  have contents := congrArg (List.countP (·.toOption.any CellContent.isFormula))
    (toContent_ofTable indexed)
  rw [List.countP_map, List.map_map, List.countP_map] at contents
  exact contents.symm

theorem exists_ofTable_of_perm (indexed : ofTable table = .ok index)
    (perm : (table'.map cell?).Perm (table.map cell?)) :
    ∃ index', ofTable table' = .ok index' := by
  obtain ⟨all, distinct⟩ := ofTable_eq_ok_iff.mp indexed
  rw [all] at perm
  have named : ∀ cell ∈ table'.map cell?, ∃ x, cell = Except.ok x := by
    intro cell member
    obtain ⟨x, -, same⟩ := List.mem_map.mp (perm.mem_iff.mp member)
    exact ⟨x, same.symm⟩
  obtain ⟨index', all'⟩ := Except.exists_map_ok named
  rw [all', List.map_perm_map_iff fun _ _ => Except.ok.inj] at perm
  exact ⟨index', ofTable_eq_ok_iff.mpr ⟨all', (perm.map Prod.fst).nodup_iff.mpr distinct⟩⟩

theorem get?_of_perm (indexed : ofTable table = .ok index) (indexed' : ofTable table' = .ok index')
    (perm : (table'.map cell?).Perm (table.map cell?)) : index'.get? c = index.get? c := by
  refine Option.ext fun content => ?_
  rw [get?_ofTable indexed, get?_ofTable indexed', ← List.mem_map, ← List.mem_map]
  exact perm.mem_iff

theorem exists_cell_of_map (all : table.map cell? = index.map .ok) :
    ∀ entry ∈ table, ∃ cell, cell? entry = .ok cell := by
  intro entry member
  have listed := List.mem_map_of_mem (f := cell?) member
  rw [all] at listed
  obtain ⟨cell, -, same⟩ := List.mem_map.mp listed
  exact ⟨cell, same.symm⟩

theorem nodup_iff_apart (all : table.map cell? = index.map .ok) :
    (index.map Prod.fst).Nodup ↔ table.Pairwise Apart := by
  calc (index.map Prod.fst).Nodup
      ↔ (index.map Except.ok).Pairwise Differ := by
        rw [List.Nodup, List.pairwise_map, List.pairwise_map]
        exact List.Pairwise.iff fun x y => differ_ok_iff.symm
    _ ↔ (table.map cell?).Pairwise Differ := by rw [all]
    _ ↔ table.Pairwise Apart := by
        rw [List.pairwise_map]
        refine List.Pairwise.iff_of_mem fun {x y} among among' => ?_
        obtain ⟨c, here⟩ := exists_cell_of_map all x among
        obtain ⟨d, there⟩ := exists_cell_of_map all y among'
        exact differ_cell?_iff here there

theorem exists_ofTable_iff :
    (∃ index, ofTable table = .ok index) ↔
      (∀ entry ∈ table, ∃ cell, cell? entry = .ok cell) ∧ table.Pairwise Apart := by
  constructor
  · rintro ⟨index, indexed⟩
    obtain ⟨all, distinct⟩ := ofTable_eq_ok_iff.mp indexed
    exact ⟨exists_cell_of_map all, (nodup_iff_apart all).mp distinct⟩
  · rintro ⟨valid, apart⟩
    have named : ∀ cell ∈ table.map cell?, ∃ x, cell = Except.ok x := by
      intro cell member
      obtain ⟨entry, among, rfl⟩ := List.mem_map.mp member
      exact valid entry among
    obtain ⟨index, all⟩ := Except.exists_map_ok named
    exact ⟨index, ofTable_eq_ok_iff.mpr ⟨all, (nodup_iff_apart all).mpr apart⟩⟩

end CellIndex

end Spreadsheet
