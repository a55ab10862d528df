import Spreadsheet.Proofs.Fill.Agreement
import Spreadsheet.Proofs.Fill.Shift
import Spreadsheet.Proofs.Formula.Respelling

namespace Spreadsheet

open Token Fill

variable {d : Shift} {r : Reference} {name : String} {a : Address}

namespace Token

namespace Lexeme

def moved (d : Shift) (x : Lexeme) : Lexeme :=
  match x.kind.reference? with
  | none => x
  | some r =>
    { x with spelling := (r.moved d).text.toList, kind := .identifier (r.moved d).text }

/-- The reference that a lexeme is can be written after a copy. -/
def MovesInto (d : Shift) (x : Lexeme) : Prop :=
  ∀ r, x.kind.reference? = some r → ∀ b, d.move? r.address = some b → b.RowFits

variable {x : Lexeme} {xs : List Lexeme} {last : List Char}

theorem moved_valid (valid : x.Valid) (fits : x.MovesInto d) : (x.moved d).Valid := by
  unfold moved
  cases found : x.kind.reference? with
  | none => exact valid
  | some r =>
    have address := (Kind.reference?_eq_some_iff.mp found).2
    exact ⟨valid.blank, spells_of_parse (Reference.parse_moved address (fits r found))⟩

theorem moved_respells (known : x.kind.IsKnown) (fits : x.MovesInto d) :
    x.kind.Respells (Reference.moved d) (x.moved d).kind := by
  unfold moved
  cases found : x.kind.reference? with
  | some r =>
    obtain ⟨kind, address⟩ := Kind.reference?_eq_some_iff.mp found
    rw [kind]
    exact .reference address (Reference.parse_moved address (fits r found))
  | none =>
    cases kind : x.kind with
    | identifier name =>
      rw [kind] at known found
      rcases known with ⟨a, address⟩ | ⟨f, function⟩
      · have reference : (Kind.identifier name).reference? = some ⟨a, name⟩ :=
          Kind.reference?_eq_some_iff.mpr ⟨rfl, address⟩
        cases found.symm.trans reference
      · exact .function function function
    | _ => exact .refl nofun

theorem text_of_reference (valid : x.Valid) {r : Reference} (found : x.kind.reference? = some r) :
    String.ofList x.spelling = r.text := by
  have spells := valid.spells
  rw [(Kind.reference?_eq_some_iff.mp found).1] at spells
  rw [spells.identifier, String.ofList_toList]

theorem token_eq (valid : ∀ x ∈ xs, x.Valid) (moves : ∀ x ∈ xs, x.MovesInto d) (cs : List Char)
    (member : .token cs ∈ xs.flatMap pieces ++ last.map Piece.other) :
    d.token cs = .ok (d.respelled cs) := by
  rcases List.mem_append.mp member with inside | blank
  · obtain ⟨x, lexeme, piece⟩ := List.mem_flatMap.mp inside
    rcases List.mem_append.mp piece with gap | piece
    · obtain ⟨c, -, same⟩ := List.mem_map.mp gap
      cases same
    · cases found : x.kind.reference? with
      | none =>
        rw [found] at piece
        obtain ⟨c, -, same⟩ := List.mem_map.mp piece
        cases same
      | some r =>
        rw [found] at piece
        cases List.mem_singleton.mp piece
        have address := (Kind.reference?_eq_some_iff.mp found).2
        rw [← text_of_reference (valid x lexeme) found] at address
        refine Shift.token_eq (Address.parse?_eq_some_iff.mpr address) ?_
        rintro a ⟨⟩
        exact moves x lexeme r found
  · obtain ⟨c, -, same⟩ := List.mem_map.mp blank
    cases same

theorem map_moved_other (cs : List Char) :
    (cs.map Piece.other).map (Piece.moved d) = cs.map Piece.other := by
  rw [List.map_map]
  rfl

theorem flat_moved (valid : x.Valid) :
    flat ((pieces x).map (Piece.moved d)) = x.gap ++ (x.moved d).spelling := by
  unfold pieces moved
  rw [List.map_append, flat_append, map_moved_other, flat_other]
  cases found : x.kind.reference? with
  | none => exact congrArg (x.gap ++ ·) ((congrArg flat (map_moved_other _)).trans (flat_other _))
  | some r =>
    have address := (Kind.reference?_eq_some_iff.mp found).2
    have spelling := text_of_reference valid found
    rw [← spelling] at address
    have respelled : d.respelled x.spelling = (r.moved d).text.toList := by
      rw [Shift.respelled_of_parse address, spelling]
    have token : flat ([Piece.token x.spelling].map (Piece.moved d)) = (r.moved d).text.toList := by
      rw [List.map_singleton, Piece.moved, respelled]
      exact List.append_nil _
    exact congrArg (x.gap ++ ·) token

theorem flat_pieces_moved (valid : ∀ x ∈ xs, x.Valid) :
    flat ((xs.flatMap pieces ++ last.map Piece.other).map (Piece.moved d)) =
      join (xs.map (moved d)) last := by
  induction xs with
  | nil =>
    rw [List.flatMap_nil, List.nil_append, map_moved_other, flat_other]
    rfl
  | cons x xs ih =>
    have gap : (x.moved d).gap = x.gap := by
      unfold moved
      split <;> rfl
    rw [List.flatMap_cons, List.append_assoc, List.map_append, flat_append,
      flat_moved (valid x List.mem_cons_self),
      ih fun y member => valid y (List.mem_cons_of_mem _ member), List.map_cons, join, gap,
      List.append_assoc]

end Lexeme

end Token

/-- A formula's text after a copy is a formula's text, and its expression is the expression after
    the copy. -/
theorem Expr.parse_shift {text body : String} {e : Expr} (formula : formulaBody? text = some body)
    (parsed : parse body = .ok e)
    (fits : ∀ r ∈ e.references, ∀ b, d.move? r.address = some b → b.RowFits) :
    ∃ text' body', shift d text = .ok text' ∧ formulaBody? text' = some body' ∧
      parse body' = .ok (e.moved d) := by
  obtain ⟨ts, tokens, derived⟩ := exists_derives_of_parse parsed
  obtain ⟨xs, last, valid, blank, whole, kinds⟩ := exists_join_of_tokenize tokens
  have token : ∀ x ∈ xs, ∃ t ∈ ts, t.kind = x.kind := by
    intro x member
    have kind : x.kind ∈ ts.map (·.kind) := kinds ▸ List.mem_map_of_mem member
    exact List.mem_map.mp kind
  have known : ∀ x ∈ xs, x.kind.IsKnown := by
    intro x member
    obtain ⟨t, inside, kind⟩ := token x member
    exact kind ▸ derived.isKnown t inside
  have moves : ∀ x ∈ xs, x.MovesInto d := by
    intro x member r found b moved
    obtain ⟨t, inside, kind⟩ := token x member
    refine fits r ?_ b moved
    rw [derived.references_eq]
    exact List.mem_filterMap.mpr ⟨t, inside, kind ▸ found⟩
  have valid' : ∀ y ∈ xs.map (Lexeme.moved d), y.Valid := by
    intro y member
    obtain ⟨x, inside, rfl⟩ := List.mem_map.mp member
    exact Lexeme.moved_valid (valid x inside) (moves x inside)
  have derived' : ∀ us : List Token, us.map (·.kind) = (xs.map (Lexeme.moved d)).map Lexeme.kind →
      Derives .formula us (e.moved d) := by
    intro us same
    have kindwise : (ts.map (·.kind)).Forall₂ (Kind.Respells (Reference.moved d))
        (us.map (·.kind)) := by
      rw [kinds, same, List.map_map, List.forall₂_map_left_iff, List.forall₂_map_right_iff,
        List.forall₂_same]
      exact fun x member => Lexeme.moved_respells (known x member) (moves x member)
    rw [List.forall₂_map_left_iff, List.forall₂_map_right_iff] at kindwise
    exact derived.respells kindwise
  have chain : (xs.map Lexeme.kind).IsChain Kind.Meets := by
    rw [← kinds, List.isChain_map]
    exact derived.isChain
  have scanned : pieces false body.toList = xs.flatMap Lexeme.pieces ++ last.map .other := by
    rw [whole]
    exact Lexeme.pieces_join valid known chain blank nofun
  have shifted := shift_eq (d := d) formula (by
    rw [scanned]
    exact Lexeme.token_eq valid moves)
  rw [scanned, Lexeme.flat_pieces_moved valid] at shifted
  exact ⟨_, _, shifted, formulaBody?_ofList _, parse_join valid' blank derived'⟩

/-- The text of a formula after a copy is an equal sign and a body. The body writes the same
    expression, but for the references: one whose address stays in the grid is moved on its relative
    axes, and one whose address would leave it stays as it is. -/
theorem Expr.parse_copy {text body : String} {e : Expr} {source target : Coordinate}
    (formula : formulaBody? text = some body) (parsed : parse body = .ok e)
    (fits : ∀ r ∈ e.references, ((Shift.between source target).target r.address).InGrid →
      ((Shift.between source target).target r.address).RowFits) :
    ∃ text' body', copy text source target = .ok text' ∧ formulaBody? text' = some body' ∧
      parse body' = .ok (e.mapReferences (Reference.moved (Shift.between source target))) ∧
      ∀ r ∈ e.references,
        (((Shift.between source target).target r.address).InGrid →
          (r.moved (Shift.between source target)).address =
            (Shift.between source target).target r.address) ∧
        (¬ ((Shift.between source target).target r.address).InGrid →
          r.moved (Shift.between source target) = r) := by
  obtain ⟨text', body', shifted, formula', parsed'⟩ := parse_shift formula parsed
    (d := Shift.between source target) fun r member b moved => by
      obtain ⟨rfl, grid, -⟩ := Shift.move?_eq_some_iff.mp moved
      exact fits r member grid
  refine ⟨text', body', shifted, formula', parsed', fun r _ =>
    ⟨fun grid => ?_, Reference.moved_of_not_inGrid⟩⟩
  rw [Reference.address_moved, Shift.place_eq, if_pos grid]

theorem Expr.parse_copy_at_edge :
    let e : Expr :=
      .binary .add (.ref ⟨⟨0, 0, false, false⟩, "A1"⟩) (.ref ⟨⟨1, 1, true, false⟩, "$B2"⟩)
    let d := Shift.between ⟨1, 0⟩ ⟨0, 1⟩
    formulaBody? "=A1 + $B2" = some "A1 + $B2" ∧ parse "A1 + $B2" = .ok e ∧
      (∀ r ∈ e.references, (d.target r.address).InGrid → (d.target r.address).RowFits) ∧
      ∃ text' body', copy "=A1 + $B2" ⟨1, 0⟩ ⟨0, 1⟩ = .ok text' ∧
        formulaBody? text' = some body' ∧ parse body' = .ok (e.mapReferences (Reference.moved d)) ∧
        ∀ r ∈ e.references,
          ((d.target r.address).InGrid → (r.moved d).address = d.target r.address) ∧
          (¬ (d.target r.address).InGrid → r.moved d = r) := by
  intro e d
  have formula : formulaBody? "=A1 + $B2" = some "A1 + $B2" := by cbv
  have parsed : parse "A1 + $B2" = .ok e := by cbv
  have fits : ∀ r ∈ e.references, (d.target r.address).InGrid → (d.target r.address).RowFits := by
    have rows : ∀ r ∈ e.references, (d.target r.address).row < 9 := by decide
    exact fun r member _ => Address.rowFits_of_lt (rows r member)
  exact ⟨formula, parsed, fits, parse_copy formula parsed fits⟩

end Spreadsheet
