import Spreadsheet.Fill.Expr
import Spreadsheet.Proofs.Fill.Scanning
import Spreadsheet.Proofs.Formula.Soundness

namespace Spreadsheet

theorem formulaBody?_eq_some_iff {text body : String} :
    formulaBody? text = some body ↔ text = String.ofList ('=' :: body.toList) := by
  unfold formulaBody?
  constructor
  · intro h
    split at h
    · rename_i cs same
      cases h
      rw [String.toList_ofList, ← same, String.ofList_toList]
    · cases h
  · rintro rfl
    simp only [String.toList_ofList, String.ofList_toList]

theorem formulaBody?_ofList (cs : List Char) :
    formulaBody? (String.ofList ('=' :: cs)) = some (String.ofList cs) := by
  rw [formulaBody?_eq_some_iff, String.toList_ofList]

namespace Fill

def Shift.between (source target : Coordinate) : Shift :=
  ⟨target.column - source.column, target.row - source.row⟩

namespace Shift

variable {d : Shift} {a b : Address} {cs : List Char}

/-- Where an address would stand after a copy, in the grid or not. -/
def target (d : Shift) (a : Address) : Address :=
  { a with
    column := a.column + if a.absoluteColumn then 0 else d.columns
    row := a.row + if a.absoluteRow then 0 else d.rows }

theorem move?_eq (d : Shift) (a : Address) :
    d.move? a = if (d.target a).InGrid ∧ (d.target a).coordinate ≠ a.coordinate then
      some (d.target a) else none := by
  have shifted : a.shifted? (if a.absoluteColumn then 0 else d.columns)
      (if a.absoluteRow then 0 else d.rows) =
        if (d.target a).InGrid then some (d.target a) else none := rfl
  unfold move?
  rw [shifted]
  by_cases grid : (d.target a).InGrid
  · simp [grid]
  · simp [grid]

theorem move?_eq_some_iff :
    d.move? a = some b ↔ b = d.target a ∧ b.InGrid ∧ b.coordinate ≠ a.coordinate := by
  rw [move?_eq]
  split
  · rename_i moves
    constructor
    · rintro ⟨⟩
      exact ⟨rfl, moves⟩
    · rintro ⟨rfl, -⟩
      rfl
  · rename_i stays
    constructor
    · nofun
    · rintro ⟨rfl, moves⟩
      exact absurd moves stays

theorem move?_zero (a : Address) : (⟨0, 0⟩ : Shift).move? a = none := by
  cases moved : (⟨0, 0⟩ : Shift).move? a with
  | none => rfl
  | some b =>
    obtain ⟨rfl, -, other⟩ := move?_eq_some_iff.mp moved
    simp [target, Address.coordinate] at other

def place (d : Shift) (a : Address) : Address := (d.move? a).getD a

theorem place_eq (d : Shift) (a : Address) :
    d.place a = if (d.target a).InGrid then d.target a else a := by
  have unmoved : (d.target a).coordinate = a.coordinate → d.target a = a := by
    intro same
    obtain ⟨columns, rows⟩ := Coordinate.mk.inj same
    unfold target at columns rows ⊢
    dsimp only at columns rows
    rw [columns, rows]
  rw [place, move?_eq]
  by_cases grid : (d.target a).InGrid
  · by_cases same : (d.target a).coordinate = a.coordinate
    · simp [unmoved same]
    · simp [same, grid]
  · simp [grid]

theorem place_inGrid (grid : a.InGrid) : (d.place a).InGrid := by
  rw [place_eq]
  split <;> assumption

end Shift

end Fill

namespace Reference

variable {d : Fill.Shift} {r : Reference}

theorem moved_eq (d : Fill.Shift) (r : Reference) :
    r.moved d = r ∨ ∃ b, d.move? r.address = some b ∧ r.moved d = ⟨b, b.text⟩ := by
  unfold moved
  split
  · exact .inl rfl
  · rename_i b moved
    exact .inr ⟨b, moved, rfl⟩

theorem moved_zero (r : Reference) : r.moved ⟨0, 0⟩ = r := by
  unfold moved
  rw [Fill.Shift.move?_zero]

theorem address_moved (d : Fill.Shift) (r : Reference) :
    (r.moved d).address = d.place r.address := by
  unfold moved Fill.Shift.place
  split
  · rename_i stays
    rw [stays]
    rfl
  · rename_i b moves
    rw [moves]
    rfl

theorem moved_of_not_inGrid (outside : ¬ (d.target r.address).InGrid) : r.moved d = r := by
  unfold moved
  rw [Fill.Shift.move?_eq, if_neg fun moves => outside moves.1]

theorem parse_moved (valid : Address.parse r.text = .ok r.address)
    (fits : ∀ b, d.move? r.address = some b → b.RowFits) :
    Address.parse (r.moved d).text = .ok (r.moved d).address := by
  rcases r.moved_eq d with same | ⟨b, moved, same⟩
  · rw [same]
    exact valid
  · rw [same]
    exact Address.parse_text (Fill.Shift.move?_eq_some_iff.mp moved).2.1 (fits b moved)

end Reference

namespace Fill

namespace Shift

variable {d : Shift} {cs : List Char}

def respelled (d : Shift) (cs : List Char) : List Char :=
  match Address.parse (String.ofList cs) with
  | .ok a => (Reference.moved d ⟨a, String.ofList cs⟩).text.toList
  | .error _ => cs

theorem respelled_of_parse {a : Address} (valid : Address.parse (String.ofList cs) = .ok a) :
    d.respelled cs = (Reference.moved d ⟨a, String.ofList cs⟩).text.toList := by
  rw [respelled, valid]

theorem respelled_of_not_parse (other : ∀ a, Address.parse (String.ofList cs) ≠ .ok a) :
    d.respelled cs = cs := by
  unfold respelled
  split
  · rename_i a valid
    exact absurd valid (other a)
  · rfl

/-- An address token is read, and its row number after a copy can be written. -/
def Fits (d : Shift) (cs : List Char) : Prop :=
  ∃ o, Address.parse? (String.ofList cs) = .ok o ∧ ∀ a ∈ o, (d.target a).RowFits

theorem token_eq {o : Option Address} (read : Address.parse? (String.ofList cs) = .ok o)
    (fits : ∀ a ∈ o, ∀ b, d.move? a = some b → b.RowFits) : d.token cs = .ok (d.respelled cs) := by
  unfold token
  rw [read]
  cases o with
  | none =>
    have other : ∀ a, Address.parse (String.ofList cs) ≠ .ok a := by
      intro a valid
      cases read.symm.trans (Address.parse?_eq_some_iff.mpr valid)
    rw [respelled_of_not_parse other]
  | some a =>
    rw [respelled_of_parse (Address.parse?_eq_some_iff.mp read)]
    unfold Reference.moved
    cases moved : d.move? a with
    | none => simp only [moved, String.toList_ofList]
    | some b =>
      have grid := (move?_eq_some_iff.mp moved).2.1
      simp only [moved, Address.format_eq_text grid (fits a rfl b moved)]
      rfl

theorem Fits.token_eq (fits : d.Fits cs) : d.token cs = .ok (d.respelled cs) := by
  obtain ⟨o, read, row⟩ := fits
  refine Shift.token_eq read fun a address b moved => ?_
  rw [(move?_eq_some_iff.mp moved).1]
  exact row a address

theorem respelled_zero (cs : List Char) : (⟨0, 0⟩ : Shift).respelled cs = cs := by
  cases valid : Address.parse (String.ofList cs) with
  | ok a => rw [respelled_of_parse valid, Reference.moved_zero, String.toList_ofList]
  | error f => exact respelled_of_not_parse (by simp [valid])

end Shift

def Piece.moved (d : Shift) : Piece → Piece
  | .token cs => .token (d.respelled cs)
  | .other c => .other c

theorem keepsTokens (d : Shift) : KeepsTokens (Piece.moved d) where
  other _ := rfl
  token s shaped := by
    rw [Piece.moved]
    cases valid : Address.parse (String.ofList s.chars) with
    | error f =>
      rw [Shift.respelled_of_not_parse (by simp [valid])]
      exact ⟨s, shaped, rfl, rfl⟩
    | ok a =>
      rw [Shift.respelled_of_parse valid]
      rcases Reference.moved_eq d ⟨a, String.ofList s.chars⟩ with kept | ⟨b, moved, changed⟩
      · rw [kept, String.toList_ofList]
        exact ⟨s, shaped, rfl, rfl⟩
      · have grid := (Shift.move?_eq_some_iff.mp moved).2.1
        obtain ⟨t, written, -, whole⟩ := exists_spelling_of_parse valid
        rw [String.toList_ofList] at whole
        refine ⟨b.spelling, spelling_shaped grid, ?_, ?_⟩
        · rw [changed, Address.text, String.toList_ofList, Address.textChars_eq grid]
        · rw [whole, getLast?_isJoining written, getLast?_isJoining (Address.spelling_valid grid)]

theorem Shift.allPieces_eq {d : Shift} {ps : List Piece}
    (read : ∀ cs, .token cs ∈ ps → d.token cs = .ok (d.respelled cs)) :
    d.allPieces ps = .ok (flat (ps.map (Piece.moved d))) := by
  induction ps with
  | nil => rfl
  | cons p ps ih =>
    have others := ih fun cs member => read cs (List.mem_cons_of_mem _ member)
    have first : d.piece p = .ok (p.moved d).chars := by
      cases p with
      | token cs => exact read cs List.mem_cons_self
      | other c => rfl
    rw [allPieces, first, others, List.map_cons, flat_cons]
    rfl

theorem Piece.moved_zero (p : Piece) : p.moved ⟨0, 0⟩ = p := by
  cases p with
  | token cs => rw [moved, Shift.respelled_zero]
  | other c => rfl

theorem shift_of_literal {d : Shift} {text : String} (literal : formulaBody? text = none) :
    shift d text = .ok text := by
  unfold shift
  rw [literal]

/-- The text of a formula after a copy, if its address tokens are read and can be written. -/
theorem shift_eq {d : Shift} {text body : String} (formula : formulaBody? text = some body)
    (read : ∀ cs, .token cs ∈ pieces false body.toList → d.token cs = .ok (d.respelled cs)) :
    shift d text =
      .ok (String.ofList ('=' :: flat ((pieces false body.toList).map (Piece.moved d)))) := by
  unfold shift
  rw [formula]
  dsimp only
  split
  · rename_i zero
    obtain ⟨columns, rows⟩ := d
    obtain ⟨rfl, rfl⟩ := zero
    rw [List.map_congr_left fun p _ => p.moved_zero, List.map_id', flat_pieces,
      formulaBody?_eq_some_iff.mp formula]
  · rw [Shift.allPieces_eq read]
    rfl

end Fill

end Spreadsheet
