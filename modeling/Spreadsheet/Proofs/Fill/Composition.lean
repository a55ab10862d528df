import Spreadsheet.Proofs.Fill.Shift

namespace Spreadsheet.Fill

namespace Shift

variable {d e : Shift} {a b c : Address} {cs : List Char}

def alongRow (d : Shift) : Shift := ⟨d.columns, 0⟩

def alongColumn (d : Shift) : Shift := ⟨0, d.rows⟩

/-- One axis of an address leaves the grid in a copy, and the other one moves inside of it. -/
def Tears (d : Shift) (a : Address) : Prop :=
  (d.alongRow.target a).InGrid ∧ d.alongRow.target a ≠ a ∧ ¬ (d.alongColumn.target a).InGrid ∨
    (d.alongColumn.target a).InGrid ∧ d.alongColumn.target a ≠ a ∧ ¬ (d.alongRow.target a).InGrid

theorem target_alongColumn_alongRow (d : Shift) (a : Address) :
    d.alongColumn.target (d.alongRow.target a) = d.target a := by
  simp [target, alongColumn, alongRow]

theorem target_inGrid_iff (grid : a.InGrid) :
    (d.target a).InGrid ↔ (d.alongRow.target a).InGrid ∧ (d.alongColumn.target a).InGrid := by
  simp only [Address.InGrid, target, alongRow, alongColumn, ite_self, Int.add_zero] at grid ⊢
  omega

theorem place_alongColumn_alongRow (grid : a.InGrid) :
    d.alongColumn.place (d.alongRow.place a) = d.place a ↔ ¬ d.Tears a := by
  have both := target_inGrid_iff (d := d) grid
  rw [place_eq d, place_eq d.alongRow]
  by_cases column : (d.alongRow.target a).InGrid
  · rw [if_pos column, place_eq, target_alongColumn_alongRow]
    by_cases row : (d.alongColumn.target a).InGrid
    · simp [both, column, row, Tears]
    · simp [both, column, row, Tears]
  · rw [if_neg column, place_eq]
    by_cases row : (d.alongColumn.target a).InGrid
    · simp [both, column, row, Tears]
    · simp [both, column, row, Tears]

/-- The text of an address token after a copy that places its address `a` at `b`. -/
def spelled (cs : List Char) (a b : Address) : List Char := if b = a then cs else b.textChars

theorem parse_spelled (valid : Address.parse (String.ofList cs) = .ok a) (grid : b.InGrid)
    (fits : b.RowFits) : Address.parse (String.ofList (spelled cs a b)) = .ok b := by
  unfold spelled
  split
  · rename_i same
    rw [same]
    exact valid
  · exact Address.parse_text grid fits

theorem respelled_eq_spelled (valid : Address.parse (String.ofList cs) = .ok a) :
    d.respelled cs = spelled cs a (d.place a) := by
  rw [respelled_of_parse valid, Reference.moved, place]
  cases moved : d.move? a with
  | none => simp [spelled]
  | some b =>
    have other : b ≠ a := by
      rintro rfl
      exact (move?_eq_some_iff.mp moved).2.2 rfl
    simp [spelled, other, Address.text]

theorem Fits.rowFits (valid : Address.parse (String.ofList cs) = .ok a) (fits : d.Fits cs) :
    (d.target a).RowFits := by
  obtain ⟨o, read, rows⟩ := fits
  cases read.symm.trans (Address.parse?_eq_some_iff.mpr valid)
  exact rows a rfl

theorem place_rowFits (valid : Address.parse (String.ofList cs) = .ok a) (fits : d.Fits cs) :
    (d.place a).RowFits := by
  rw [place_eq]
  split
  · exact fits.rowFits valid
  · exact Address.rowFits_of_parse valid

theorem parse_respelled (valid : Address.parse (String.ofList cs) = .ok a) (fits : d.Fits cs) :
    Address.parse (String.ofList (d.respelled cs)) = .ok (d.place a) := by
  rw [respelled_eq_spelled valid]
  exact parse_spelled valid (place_inGrid (Address.inGrid_of_parse valid))
    (place_rowFits valid fits)

theorem Fits.alongRow (fits : d.Fits cs) : d.alongRow.Fits cs := by
  obtain ⟨o, read, rows⟩ := fits
  refine ⟨o, read, ?_⟩
  rintro a rfl
  have row := Address.rowFits_of_parse (Address.parse?_eq_some_iff.mp read)
  unfold Address.RowFits at row ⊢
  simpa [target, Shift.alongRow] using row

theorem place_alongRow (d : Shift) (a : Address) :
    d.alongRow.place a = { a with column := (d.alongRow.place a).column } := by
  rw [place_eq]
  split
  · simp [target, alongRow]
  · rfl

theorem place_alongColumn (d : Shift) (a : Address) :
    d.alongColumn.place a = { a with row := (d.alongColumn.place a).row } := by
  rw [place_eq]
  split
  · simp [target, alongColumn]
  · rfl

theorem Fits.respelled {e : Shift} (fits : d.Fits cs)
    (rows : ∀ a, Address.parse (String.ofList cs) = .ok a → (e.target (d.place a)).RowFits) :
    e.Fits (d.respelled cs) := by
  obtain ⟨o, read, target⟩ := fits
  cases o with
  | none =>
    have other : ∀ a, Address.parse (String.ofList cs) ≠ .ok a := by
      intro a valid
      cases read.symm.trans (Address.parse?_eq_some_iff.mpr valid)
    rw [respelled_of_not_parse other]
    exact ⟨none, read, nofun⟩
  | some a =>
    have valid := Address.parse?_eq_some_iff.mp read
    have moved := parse_respelled valid ⟨_, read, target⟩
    refine ⟨_, Address.parse?_eq_some_iff.mpr moved, ?_⟩
    rintro b ⟨⟩
    exact rows a valid

theorem Fits.alongColumn (fits : d.Fits cs) : d.alongColumn.Fits (d.alongRow.respelled cs) := by
  refine fits.alongRow.respelled fun a valid => ?_
  have row := fits.rowFits valid
  rw [place_alongRow]
  exact row

theorem spelled_inj (valid : Address.parse (String.ofList cs) = .ok a) (grid : b.InGrid)
    (fits : b.RowFits) (grid' : c.InGrid) (fits' : c.RowFits) :
    spelled cs a b = spelled cs a c ↔ b = c := by
  constructor
  · intro same
    have read := parse_spelled valid grid fits
    rw [same, parse_spelled valid grid' fits'] at read
    exact (Except.ok.inj read).symm
  · rintro rfl
    rfl

/-- A token after two copies is spelled like one that is placed there at once, unless the second
    copy puts back what the first one moved. -/
theorem respelled_respelled {e : Shift} (valid : Address.parse (String.ofList cs) = .ok a)
    (fits : d.Fits cs) (back : e.place (d.place a) = a → d.place a = a) :
    e.respelled (d.respelled cs) = spelled cs a (e.place (d.place a)) := by
  have read := parse_respelled valid fits
  rw [respelled_eq_spelled read, respelled_eq_spelled valid]
  generalize e.place (d.place a) = c at back ⊢
  unfold spelled
  by_cases here : c = d.place a
  · simp [here]
  · have other : c ≠ a := fun same => here (same.trans (back same).symm)
    rw [if_neg here, if_neg other]

theorem respelled_alongColumn_alongRow (valid : Address.parse (String.ofList cs) = .ok a)
    (fits : d.Fits cs) : d.alongColumn.respelled (d.alongRow.respelled cs) =
      spelled cs a (d.alongColumn.place (d.alongRow.place a)) := by
  refine respelled_respelled valid fits.alongRow fun same => ?_
  have column := congrArg Address.column (place_alongColumn d (d.alongRow.place a))
  rw [same] at column
  rw [place_alongRow, ← column]

theorem respelled_eq_iff (valid : Address.parse (String.ofList cs) = .ok a) (fits : d.Fits cs) :
    d.alongColumn.respelled (d.alongRow.respelled cs) = d.respelled cs ↔ ¬ d.Tears a := by
  have grid := Address.inGrid_of_parse valid
  have row := place_rowFits (parse_respelled valid fits.alongRow) fits.alongColumn
  rw [respelled_alongColumn_alongRow valid fits, respelled_eq_spelled valid,
    spelled_inj valid (place_inGrid (place_inGrid grid)) row (place_inGrid grid)
      (place_rowFits valid fits), place_alongColumn_alongRow grid]

end Shift

def addressTokens (text : String) : List (List Char) :=
  match formulaBody? text with
  | none => []
  | some body => (pieces false body.toList).filterMap fun
    | .token cs => some cs
    | .other _ => none

theorem mem_addressTokens {text body : String} {cs : List Char}
    (formula : formulaBody? text = some body) :
    cs ∈ addressTokens text ↔ .token cs ∈ pieces false body.toList := by
  unfold addressTokens
  rw [formula]
  simp only [List.mem_filterMap]
  constructor
  · rintro ⟨p, member, found⟩
    cases p with
    | token cs =>
      cases found
      exact member
    | other c => cases found
  · exact fun member => ⟨_, member, rfl⟩

theorem exists_shift {d : Shift} {text body : String} (formula : formulaBody? text = some body)
    (fits : ∀ cs ∈ addressTokens text, d.Fits cs) :
    ∃ text' body', shift d text = .ok text' ∧ formulaBody? text' = some body' ∧
      pieces false body'.toList = (pieces false body.toList).map (Piece.moved d) := by
  have shifted := shift_eq formula fun cs member =>
    (fits cs ((mem_addressTokens formula).mpr member)).token_eq
  refine ⟨_, _, shifted, formulaBody?_ofList _, ?_⟩
  rw [String.toList_ofList]
  exact (pieces_map (keepsTokens d) false body.toList).1

theorem exists_shift_shift {d e : Shift} {text body : String}
    (formula : formulaBody? text = some body) (fits : ∀ cs ∈ addressTokens text, d.Fits cs)
    (fits' : ∀ cs ∈ addressTokens text, e.Fits (d.respelled cs)) :
    ∃ g text' body', shift d text = .ok g ∧ shift e g = .ok text' ∧
      formulaBody? text' = some body' ∧
      pieces false body'.toList =
        ((pieces false body.toList).map (Piece.moved d)).map (Piece.moved e) := by
  obtain ⟨g, body', first, between, scanned⟩ := exists_shift formula fits
  have second : ∀ cs ∈ addressTokens g, e.Fits cs := by
    intro cs member
    rw [mem_addressTokens between, scanned] at member
    obtain ⟨p, inside, same⟩ := List.mem_map.mp member
    cases p with
    | token cs' =>
      cases same
      exact fits' cs' ((mem_addressTokens formula).mpr inside)
    | other c => cases same
  obtain ⟨text', body'', last, formula', scanned'⟩ := exists_shift between second
  rw [scanned] at scanned'
  exact ⟨g, text', body'', first, last, formula', scanned'⟩

theorem formula_inj {text text' body body' : String} (formula : formulaBody? text = some body)
    (formula' : formulaBody? text' = some body') :
    text = text' ↔ pieces false body.toList = pieces false body'.toList := by
  constructor
  · rintro rfl
    rw [Option.some.inj (formula.symm.trans formula')]
  · intro same
    have bodies := congrArg flat same
    rw [flat_pieces, flat_pieces] at bodies
    rw [formulaBody?_eq_some_iff.mp formula, formulaBody?_eq_some_iff.mp formula', bodies]

theorem shift_alongColumn_alongRow {d : Shift} {text body : String}
    (formula : formulaBody? text = some body) (fits : ∀ cs ∈ addressTokens text, d.Fits cs) :
    ∃ g u v, shift d.alongRow text = .ok g ∧ shift d.alongColumn g = .ok u ∧
      shift d text = .ok v ∧ (u = v ↔ ∀ cs ∈ addressTokens text,
        d.alongColumn.respelled (d.alongRow.respelled cs) = d.respelled cs) := by
  obtain ⟨g, u, body', across, down, formula', scanned⟩ := exists_shift_shift formula
    (fun cs member => (fits cs member).alongRow) fun cs member => (fits cs member).alongColumn
  obtain ⟨v, body'', direct, formula'', scanned'⟩ := exists_shift formula fits
  refine ⟨g, u, v, across, down, direct, ?_⟩
  rw [formula_inj formula' formula'', scanned, scanned', List.map_map, List.map_inj_left]
  constructor
  · intro same cs token
    exact Piece.token.inj (same _ ((mem_addressTokens formula).mp token))
  · intro same p member
    cases p with
    | token cs => exact congrArg Piece.token (same cs ((mem_addressTokens formula).mpr member))
    | other c => rfl

/-- A copy along a row and then along a column gives the text of the copy along both just if it
    tears no address: a token whose move along one axis leaves the grid stays as it is in the copy
    along both, but its move along the other axis is still made when that is a copy of its own. -/
theorem vertical_horizontal_eq_copy_iff {text : String} {source target : Coordinate}
    (fits : ∀ cs ∈ addressTokens text, (Shift.between source target).Fits cs) :
    ∃ g u v, horizontal text source target.column = .ok g ∧
      vertical g ⟨target.column, source.row⟩ target.row = .ok u ∧
      copy text source target = .ok v ∧
      (u = v ↔ ∀ cs ∈ addressTokens text, ∀ a, Address.parse (String.ofList cs) = .ok a →
        ¬ (Shift.between source target).Tears a) := by
  have row : horizontal text source target.column =
      shift (Shift.between source target).alongRow text := by
    simp only [horizontal, copy, Shift.alongRow, Shift.between, Int.sub_self]
  have column : ∀ g, vertical g ⟨target.column, source.row⟩ target.row =
      shift (Shift.between source target).alongColumn g := by
    intro g
    simp only [vertical, copy, Shift.alongColumn, Shift.between, Int.sub_self]
  have both : copy text source target = shift (Shift.between source target) text := rfl
  rw [row, both]
  cases formula : formulaBody? text with
  | none =>
    have kept : ∀ d, shift d text = .ok text := by
      intro d
      rw [shift, formula]
    refine ⟨text, text, text, kept _, (column text).trans (kept _), kept _, ?_⟩
    simp [addressTokens, formula]
  | some body =>
    obtain ⟨g, u, v, across, down, direct, same⟩ := shift_alongColumn_alongRow formula fits
    refine ⟨g, u, v, across, (column g).trans down, direct, same.trans ?_⟩
    refine forall_congr' fun cs => forall_congr' fun member => ?_
    cases valid : Address.parse (String.ofList cs) with
    | error f =>
      have other : ∀ a, Address.parse (String.ofList cs) ≠ .ok a := by simp [valid]
      simp [Shift.respelled_of_not_parse other]
    | ok a => simp [Shift.respelled_eq_iff valid (fits cs member)]

theorem vertical_horizontal_of_edge :
    (∀ cs ∈ addressTokens "=A1+$B2", (Shift.between ⟨1, 0⟩ ⟨0, 1⟩).Fits cs) ∧
      ∃ g u v, horizontal "=A1+$B2" ⟨1, 0⟩ 0 = .ok g ∧ vertical g ⟨0, 0⟩ 1 = .ok u ∧
        copy "=A1+$B2" ⟨1, 0⟩ ⟨0, 1⟩ = .ok v ∧
        (u = v ↔ ∀ cs ∈ addressTokens "=A1+$B2", ∀ a, Address.parse (String.ofList cs) = .ok a →
          ¬ (Shift.between ⟨1, 0⟩ ⟨0, 1⟩).Tears a) := by
  have tokens : addressTokens "=A1+$B2" = [['A', '1'], ['$', 'B', '2']] := by cbv
  have fits : ∀ cs ∈ addressTokens "=A1+$B2", (Shift.between ⟨1, 0⟩ ⟨0, 1⟩).Fits cs := by
    rw [tokens, List.forall_mem_cons, List.forall_mem_singleton]
    constructor
    · refine ⟨some ⟨0, 0, false, false⟩, by cbv, ?_⟩
      rintro a ⟨⟩
      exact Address.rowFits_of_lt (by decide)
    · refine ⟨some ⟨1, 1, true, false⟩, by cbv, ?_⟩
      rintro a ⟨⟩
      exact Address.rowFits_of_lt (by decide)
  exact ⟨fits, vertical_horizontal_eq_copy_iff fits⟩

/-- A copy of A1 one column to the left and one row down leaves the grid, so A1 stays; without the
    column it becomes A2. -/
theorem vertical_horizontal_ne_copy :
    (∀ cs ∈ addressTokens "=A1", (Shift.between ⟨1, 0⟩ ⟨0, 1⟩).Fits cs) ∧
      horizontal "=A1" ⟨1, 0⟩ 0 = .ok "=A1" ∧ vertical "=A1" ⟨0, 0⟩ 1 = .ok "=A2" ∧
      copy "=A1" ⟨1, 0⟩ ⟨0, 1⟩ = .ok "=A1" ∧ "=A2" ≠ "=A1" := by
  have tokens : addressTokens "=A1" = [['A', '1']] := by cbv
  have fits : ∀ d : Shift, d.rows = 1 → ∀ cs ∈ addressTokens "=A1", d.Fits cs := by
    intro d down
    rw [tokens, List.forall_mem_singleton]
    refine ⟨some ⟨0, 0, false, false⟩, by cbv, ?_⟩
    rintro a ⟨⟩
    refine Address.rowFits_of_lt ?_
    simp [Shift.target, down]
  refine ⟨fits _ rfl, by cbv, ?_, by cbv, by decide⟩
  have formula : formulaBody? "=A1" = some "A1" := by cbv
  have moved :
      flat ((pieces false ("A1" : String).toList).map (Piece.moved ⟨0, 1⟩)) = ['A', '2'] := by
    cbv
  have filled := shift_eq (d := ⟨0, 1⟩) formula fun cs member =>
    (fits ⟨0, 1⟩ rfl cs ((mem_addressTokens formula).mpr member)).token_eq
  rw [moved] at filled
  exact filled

end Spreadsheet.Fill
