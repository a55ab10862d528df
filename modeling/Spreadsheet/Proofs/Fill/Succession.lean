import Spreadsheet.Proofs.Fill.Composition
import Spreadsheet.Proofs.Fill.Parsing

namespace Spreadsheet

namespace Fill

namespace Shift

variable {d e : Shift} {a : Address} {cs : List Char}

theorem target_alongRow_alongColumn (d : Shift) (a : Address) :
    d.alongRow.target (d.alongColumn.target a) = d.target a := by
  simp [target, alongColumn, alongRow]

theorem place_comm (grid : a.InGrid) :
    d.alongRow.place (d.alongColumn.place a) = d.alongColumn.place (d.alongRow.place a) := by
  have both := target_inGrid_iff (d := d) grid
  rw [place_eq d.alongColumn a, place_eq d.alongRow a]
  by_cases column : (d.alongRow.target a).InGrid
  · by_cases row : (d.alongColumn.target a).InGrid
    · simp [place_eq, target_alongColumn_alongRow, target_alongRow_alongColumn, both, column, row]
    · simp [place_eq, target_alongColumn_alongRow, both, column, row]
  · by_cases row : (d.alongColumn.target a).InGrid
    · simp [place_eq, target_alongRow_alongColumn, both, column, row]
    · simp [place_eq, column, row]

theorem Fits.ofRows (fits : d.Fits cs) : d.alongColumn.Fits cs := fits

theorem Fits.ofColumns (fits : d.Fits cs) : d.alongRow.Fits (d.alongColumn.respelled cs) := by
  refine fits.ofRows.respelled fun a valid => ?_
  have row := place_rowFits valid fits.ofRows
  unfold Address.RowFits at row ⊢
  simpa [target, Shift.alongRow] using row

theorem respelled_alongRow_alongColumn (valid : Address.parse (String.ofList cs) = .ok a)
    (fits : d.Fits cs) : d.alongRow.respelled (d.alongColumn.respelled cs) =
      spelled cs a (d.alongRow.place (d.alongColumn.place a)) := by
  refine respelled_respelled valid fits.ofRows fun same => ?_
  have row := congrArg Address.row (place_alongRow d (d.alongColumn.place a))
  rw [same] at row
  rw [place_alongColumn, ← row]

theorem respelled_comm (fits : d.Fits cs) :
    d.alongRow.respelled (d.alongColumn.respelled cs) =
      d.alongColumn.respelled (d.alongRow.respelled cs) := by
  cases valid : Address.parse (String.ofList cs) with
  | error f =>
    have other : ∀ a, Address.parse (String.ofList cs) ≠ .ok a := by simp [valid]
    simp only [respelled_of_not_parse other]
  | ok a =>
    rw [respelled_alongRow_alongColumn valid fits, respelled_alongColumn_alongRow valid fits,
      place_comm (Address.inGrid_of_parse valid)]

end Shift

theorem shift_comm {d : Shift} {text body : String} (formula : formulaBody? text = some body)
    (fits : ∀ cs ∈ addressTokens text, d.Fits cs) :
    ∃ g h u, shift d.alongRow text = .ok g ∧ shift d.alongColumn g = .ok u ∧
      shift d.alongColumn text = .ok h ∧ shift d.alongRow h = .ok u := by
  obtain ⟨g, u, body', across, down, formula', scanned⟩ := exists_shift_shift formula
    (fun cs member => (fits cs member).alongRow) fun cs member => (fits cs member).alongColumn
  obtain ⟨h, v, body'', down', across', formula'', scanned'⟩ := exists_shift_shift formula
    (fun cs member => (fits cs member).ofRows) fun cs member => (fits cs member).ofColumns
  have same : u = v := by
    rw [formula_inj formula' formula'', scanned, scanned', List.map_map, List.map_map,
      List.map_inj_left]
    intro p member
    cases p with
    | token cs =>
      have inside := (mem_addressTokens formula).mpr member
      exact congrArg Piece.token (Shift.respelled_comm (fits cs inside)).symm
    | other c => rfl
  exact ⟨g, h, u, across, down, down', same ▸ across'⟩

theorem horizontal_eq_shift (text : String) (source : Coordinate) (column : Int) :
    horizontal text source column = shift ⟨column - source.column, 0⟩ text := by
  simp only [horizontal, copy, Int.sub_self]

theorem vertical_eq_shift (text : String) (source : Coordinate) (row : Int) :
    vertical text source row = shift ⟨0, row - source.row⟩ text := by
  simp only [vertical, copy, Int.sub_self]

/-- A fill to the right and one down give the same text in either order. That holds for every text,
    and also where address tokens would leave the grid on one axis or on both. -/
theorem vertical_horizontal_comm {text : String} {source target : Coordinate}
    (fits : ∀ cs ∈ addressTokens text, (Shift.between source target).Fits cs) :
    ∃ g h u, horizontal text source target.column = .ok g ∧
      vertical g ⟨target.column, source.row⟩ target.row = .ok u ∧
      vertical text source target.row = .ok h ∧
      horizontal h ⟨source.column, target.row⟩ target.column = .ok u := by
  simp only [horizontal_eq_shift, vertical_eq_shift]
  cases formula : formulaBody? text with
  | none =>
    have kept : ∀ d, shift d text = .ok text := fun d => shift_of_literal formula
    exact ⟨text, text, text, kept _, kept _, kept _, kept _⟩
  | some body => exact shift_comm formula fits

theorem vertical_horizontal_comm_of_corner :
    let text := "=A1+A2+B1+$$b2"
    (∀ cs ∈ addressTokens text, (Shift.between ⟨1, 1⟩ ⟨0, 0⟩).Fits cs) ∧
      ∃ g h u, horizontal text ⟨1, 1⟩ 0 = .ok g ∧ vertical g ⟨0, 1⟩ 0 = .ok u ∧
        vertical text ⟨1, 1⟩ 0 = .ok h ∧ horizontal h ⟨1, 0⟩ 0 = .ok u := by
  intro text
  have tokens : addressTokens text =
      [['A', '1'], ['A', '2'], ['B', '1'], ['$', '$', 'b', '2']] := by
    cbv
  have fits : ∀ cs ∈ addressTokens text, (Shift.between ⟨1, 1⟩ ⟨0, 0⟩).Fits cs := by
    rw [tokens, List.forall_mem_cons, List.forall_mem_cons, List.forall_mem_cons,
      List.forall_mem_singleton]
    refine ⟨⟨some ⟨0, 0, false, false⟩, by cbv, ?_⟩, ⟨some ⟨0, 1, false, false⟩, by cbv, ?_⟩,
      ⟨some ⟨1, 0, false, false⟩, by cbv, ?_⟩, some ⟨1, 1, true, false⟩, by cbv, ?_⟩
    all_goals
      rintro a ⟨⟩
      exact Address.rowFits_of_lt (by decide)
  exact ⟨fits, vertical_horizontal_comm fits⟩

namespace Shift

variable {d e : Shift} {a : Address} {r : Reference}

instance : Add Shift := ⟨fun d e => ⟨d.columns + e.columns, d.rows + e.rows⟩⟩

instance : Neg Shift := ⟨fun d => ⟨-d.columns, -d.rows⟩⟩

theorem add_neg_self (d : Shift) : d + -d = ⟨0, 0⟩ := by
  change (⟨d.columns + -d.columns, d.rows + -d.rows⟩ : Shift) = ⟨0, 0⟩
  rw [Int.add_right_neg, Int.add_right_neg]

/-- An address stays in the grid in a copy, and its row number can be written. -/
def Keeps (d : Shift) (a : Address) : Prop := (d.target a).InGrid ∧ (d.target a).RowFits

theorem target_target (d e : Shift) (a : Address) : e.target (d.target a) = (d + e).target a := by
  have columns : (d + e).columns = d.columns + e.columns := rfl
  have rows : (d + e).rows = d.rows + e.rows := rfl
  simp only [target, columns, rows, Address.mk.injEq, and_true]
  constructor
  · by_cases fixed : a.absoluteColumn = true <;> simp [fixed, Int.add_assoc]
  · by_cases fixed : a.absoluteRow = true <;> simp [fixed, Int.add_assoc]

theorem place_of_keeps (keeps : d.Keeps a) : d.place a = d.target a := by
  rw [place_eq, if_pos keeps.1]

theorem Keeps.rowFits {b : Address} (keeps : d.Keeps a) (moved : d.move? a = some b) :
    b.RowFits := by
  rw [(move?_eq_some_iff.mp moved).1]
  exact keeps.2

theorem address_moved_moved (first : d.Keeps r.address) (total : (d + e).Keeps r.address) :
    ((r.moved d).moved e).address = (r.moved (d + e)).address := by
  have second : e.Keeps (d.target r.address) := by
    unfold Keeps
    rw [target_target]
    exact total
  rw [Reference.address_moved, Reference.address_moved, Reference.address_moved,
    place_of_keeps first, place_of_keeps second, place_of_keeps total, target_target]

end Shift

end Fill

namespace Expr

open Fill

variable {d d' : Shift} {e : Expr} {text body : String}

theorem unspelled_moved_moved (first : ∀ r ∈ e.references, d.Keeps r.address)
    (total : ∀ r ∈ e.references, (d + d').Keeps r.address) :
    ((e.moved d).moved d').unspelled = (e.moved (d + d')).unspelled := by
  unfold moved unspelled
  rw [mapReferences_mapReferences, mapReferences_mapReferences, mapReferences_mapReferences]
  refine mapReferences_congr e fun r member => ?_
  exact congrArg (Reference.mk · "") (Shift.address_moved_moved (first r member) (total r member))

theorem moved_zero (e : Expr) : e.moved ⟨0, 0⟩ = e :=
  (mapReferences_congr e fun r _ => r.moved_zero).trans e.mapReferences_id

/-- Copies over two distances write the expression of one copy over their sum, but for the spelling
    of its references, if all of these stay in the grid. A copy back writes the expression of the
    formula again. -/
theorem parse_shift_shift (formula : formulaBody? text = some body) (parsed : parse body = .ok e)
    (first : ∀ r ∈ e.references, d.Keeps r.address)
    (total : ∀ r ∈ e.references, (d + d').Keeps r.address) :
    ∃ g u bu eu v bv ev, shift d text = .ok g ∧
      shift d' g = .ok u ∧ formulaBody? u = some bu ∧ parse bu = .ok eu ∧
      shift (d + d') text = .ok v ∧ formulaBody? v = some bv ∧ parse bv = .ok ev ∧
      eu.unspelled = ev.unspelled ∧ (d' = -d → eu.unspelled = e.unspelled) := by
  obtain ⟨g, bg, shifted, between, parsedg⟩ := parse_shift formula parsed
    fun r member b moved => (first r member).rowFits moved
  obtain ⟨u, bu, shifted', formulau, parsedu⟩ := parse_shift between parsedg (d := d') (by
    intro r member b moved
    rw [Expr.moved, references_mapReferences] at member
    obtain ⟨r', inside, rfl⟩ := List.mem_map.mp member
    rw [Reference.address_moved, Shift.place_of_keeps (first r' inside)] at moved
    rw [(Shift.move?_eq_some_iff.mp moved).1, Shift.target_target]
    exact (total r' inside).2)
  obtain ⟨v, bv, direct, formulav, parsedv⟩ := parse_shift formula parsed (d := d + d')
    fun r member b moved => (total r member).rowFits moved
  have same := unspelled_moved_moved first total
  refine ⟨g, u, bu, _, v, bv, _, shifted, shifted', formulau, parsedu, direct, formulav, parsedv,
    same, ?_⟩
  rintro rfl
  rw [same, Shift.add_neg_self, moved_zero]

theorem parse_shift_shift_of_markers :
    let d : Shift := ⟨1, 1⟩
    let e : Expr := .binary .subtract
      (.binary .add (.ref ⟨⟨0, 0, false, false⟩, "a1"⟩) (.ref ⟨⟨1, 1, false, true⟩, "B$2"⟩))
      (.ref ⟨⟨2, 2, true, false⟩, "$$c03"⟩)
    formulaBody? "=a1 + B$2-$$c03" = some "a1 + B$2-$$c03" ∧ parse "a1 + B$2-$$c03" = .ok e ∧
      (∀ r ∈ e.references, d.Keeps r.address) ∧ (∀ r ∈ e.references, (d + -d).Keeps r.address) ∧
      ∃ g u bu eu v bv ev, shift d "=a1 + B$2-$$c03" = .ok g ∧
        shift (-d) g = .ok u ∧ formulaBody? u = some bu ∧ parse bu = .ok eu ∧
        shift (d + -d) "=a1 + B$2-$$c03" = .ok v ∧ formulaBody? v = some bv ∧ parse bv = .ok ev ∧
        eu.unspelled = ev.unspelled ∧ (-d = -d → eu.unspelled = e.unspelled) := by
  intro d e
  have formula : formulaBody? "=a1 + B$2-$$c03" = some "a1 + B$2-$$c03" := by cbv
  have parsed : parse "a1 + B$2-$$c03" = .ok e := by cbv
  have keeps : ∀ d : Shift, (∀ r ∈ e.references, (d.target r.address).InGrid ∧
      (d.target r.address).row < 9) → ∀ r ∈ e.references, d.Keeps r.address :=
    fun d stays r member =>
      ⟨(stays r member).1, Address.rowFits_of_lt (stays r member).2⟩
  have first := keeps d (by decide)
  have total := keeps (d + -d) (by decide)
  exact ⟨formula, parsed, first, total, parse_shift_shift formula parsed first total⟩

end Expr

end Spreadsheet
