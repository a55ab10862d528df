import Spreadsheet.Proofs.Fill.Composition

namespace Spreadsheet.Fill

variable {d : Shift} {cs cs' : List Char} {text body : String}

def Piece.token? : Piece → Option (List Char)
  | .token cs => some cs
  | .other _ => none

/-- The texts in front of, between and behind the address tokens. -/
def gaps : List Piece → List (List Char)
  | [] => [[]]
  | .token _ :: ps => [] :: gaps ps
  | .other c :: ps => (gaps ps).modifyHead (c :: ·)

def weave : List (List Char) → List (List Char) → List Char
  | gap :: gaps, cs :: tokens => gap ++ (cs ++ weave gaps tokens)
  | gaps, _ => gaps.flatten

def separators (text : String) : List (List Char) :=
  match formulaBody? text with
  | none => []
  | some body => gaps (pieces false body.toList)

theorem length_gaps (ps : List Piece) :
    (gaps ps).length = (ps.filterMap Piece.token?).length + 1 := by
  induction ps with
  | nil => rfl
  | cons p ps ih =>
    cases p with
    | token cs =>
      rw [gaps, List.length_cons, ih]
      rfl
    | other c =>
      rw [gaps, List.length_modifyHead, ih]
      rfl

theorem weave_gaps (ps : List Piece) : weave (gaps ps) (ps.filterMap Piece.token?) = flat ps := by
  induction ps with
  | nil => rfl
  | cons p ps ih =>
    rw [flat_cons, ← ih]
    cases p with
    | token cs => rfl
    | other c =>
      have count := length_gaps ps
      have tokens : (Piece.other c :: ps).filterMap Piece.token? = ps.filterMap Piece.token? := rfl
      rw [tokens, gaps]
      cases first : gaps ps with
      | nil =>
        rw [first] at count
        cases count
      | cons gap others => cases ps.filterMap Piece.token? <;> rfl

theorem gaps_moved (ps : List Piece) : gaps (ps.map (Piece.moved d)) = gaps ps := by
  induction ps with
  | nil => rfl
  | cons p ps ih =>
    cases p with
    | token cs => exact congrArg ([] :: ·) ih
    | other c => exact congrArg (List.modifyHead (c :: ·)) ih

theorem tokens_moved (ps : List Piece) :
    (ps.map (Piece.moved d)).filterMap Piece.token? =
      (ps.filterMap Piece.token?).map d.respelled := by
  induction ps with
  | nil => rfl
  | cons p ps ih =>
    cases p with
    | token cs => exact congrArg (d.respelled cs :: ·) ih
    | other c => exact ih

theorem addressTokens_eq (formula : formulaBody? text = some body) :
    addressTokens text = (pieces false body.toList).filterMap Piece.token? := by
  unfold addressTokens
  rw [formula]
  rfl

theorem separators_eq (formula : formulaBody? text = some body) :
    separators text = gaps (pieces false body.toList) := by
  unfold separators
  rw [formula]

theorem weave_separators (formula : formulaBody? text = some body) :
    weave (separators text) (addressTokens text) = body.toList := by
  rw [separators_eq formula, addressTokens_eq formula, weave_gaps, flat_pieces]

/-- How a copy rewrites an address token: it is kept if it is no address, if its address does not
    move, and if its address would leave the grid; else the moved address is written. -/
structure Shift.Rewrites (d : Shift) (cs cs' : List Char) : Prop where
  other : (∀ a, Address.parse (String.ofList cs) ≠ .ok a) → cs' = cs
  still : ∀ a, Address.parse (String.ofList cs) = .ok a → d.target a = a → cs' = cs
  edge : ∀ a, Address.parse (String.ofList cs) = .ok a → ¬ (d.target a).InGrid → cs' = cs
  moved : ∀ a, Address.parse (String.ofList cs) = .ok a → d.target a ≠ a →
    (d.target a).InGrid → (d.target a).format = .ok (String.ofList cs')

theorem Shift.Fits.rewrites (fits : d.Fits cs) : d.Rewrites cs (d.respelled cs) where
  other := respelled_of_not_parse
  still a valid same := by
    rw [respelled_eq_spelled valid, place_eq, same, ite_self, spelled, if_pos rfl]
  edge a valid outside := by
    rw [respelled_eq_spelled valid, place_eq, if_neg outside, spelled, if_pos rfl]
  moved a valid moves grid := by
    rw [respelled_eq_spelled valid, place_eq, if_pos grid, spelled, if_neg moves]
    exact Address.format_eq_text grid (fits.rowFits valid)

/-- A copy changes nothing but the address tokens of a formula, whether it can be read or not. Its
    text has as many address tokens as the formula, with the same texts around them, and each one
    rewrites the one in its place. -/
theorem copy_rewrites {source target : Coordinate} (formula : formulaBody? text = some body)
    (fits : ∀ cs ∈ addressTokens text, (Shift.between source target).Fits cs) :
    ∃ text' body', copy text source target = .ok text' ∧ formulaBody? text' = some body' ∧
      separators text' = separators text ∧
      (addressTokens text).Forall₂ (Shift.between source target).Rewrites (addressTokens text') ∧
      weave (separators text) (addressTokens text) = body.toList ∧
      weave (separators text) (addressTokens text') = body'.toList := by
  obtain ⟨text', body', copied, formula', scanned⟩ := exists_shift formula fits
  have around : separators text' = separators text := by
    rw [separators_eq formula', scanned, gaps_moved, separators_eq formula]
  have tokens : addressTokens text' =
      (addressTokens text).map (Shift.between source target).respelled := by
    rw [addressTokens_eq formula', scanned, tokens_moved, addressTokens_eq formula]
  refine ⟨text', body', copied, formula', around, ?_, weave_separators formula, ?_⟩
  · rw [tokens, List.forall₂_map_right_iff, List.forall₂_same]
    exact fun cs member => (fits cs member).rewrites
  · rw [← around]
    exact weave_separators formula'

theorem copy_rewrites_of_edge :
    let text := "=A1 $$b8#LOG10(ZZZ1"
    formulaBody? text = some "A1 $$b8#LOG10(ZZZ1" ∧
      (∀ cs ∈ addressTokens text, (Shift.between ⟨1, 0⟩ ⟨0, 1⟩).Fits cs) ∧
      ∃ text' body', copy text ⟨1, 0⟩ ⟨0, 1⟩ = .ok text' ∧ formulaBody? text' = some body' ∧
        separators text' = separators text ∧
        (addressTokens text).Forall₂ (Shift.between ⟨1, 0⟩ ⟨0, 1⟩).Rewrites
          (addressTokens text') ∧
        weave (separators text) (addressTokens text) = "A1 $$b8#LOG10(ZZZ1".toList ∧
        weave (separators text) (addressTokens text') = body'.toList := by
  intro text
  have formula : formulaBody? text = some "A1 $$b8#LOG10(ZZZ1" := by cbv
  have tokens : addressTokens text = [['A', '1'], ['$', '$', 'b', '8'], ['Z', 'Z', 'Z', '1']] := by
    cbv
  have fits : ∀ cs ∈ addressTokens text, (Shift.between ⟨1, 0⟩ ⟨0, 1⟩).Fits cs := by
    rw [tokens, List.forall_mem_cons, List.forall_mem_cons, List.forall_mem_singleton]
    refine ⟨⟨some ⟨0, 0, false, false⟩, by cbv, ?_⟩, ⟨some ⟨1, 7, true, false⟩, by cbv, ?_⟩,
      none, by cbv, fun a member => absurd member (Option.not_mem_none a)⟩
    all_goals
      rintro a ⟨⟩
      exact Address.rowFits_of_lt (by decide)
  exact ⟨formula, fits, copy_rewrites formula fits⟩

end Spreadsheet.Fill
