import Spreadsheet.Fill
import Spreadsheet.Proofs.Address.Spelling

namespace Spreadsheet

/-- The parts of an address token: its digits may be of any script. -/
structure Address.Spelling.Shaped (s : Address.Spelling) : Prop where
  marks : s.columnMarks.all (· == '$') = true
  letters : s.letters.all Char.isAlpha = true
  digits : s.digits.all Text.isDecimalDigit = true
  some_letter : s.letters ≠ []
  few_letters : s.letters.length ≤ 3
  some_digit : s.digits ≠ []

namespace Fill

open Address

variable {cs taken digits token rest : List Char} {s : Spelling}

/-- An address token may end before a text, and no longer run of digits would end one. -/
def Stops (rest : List Char) : Prop :=
  endsToken rest = true ∧
    ∀ ds after, ds ≠ [] → ds.all Text.isDecimalDigit = true → rest = ds ++ after →
      endsToken after = false

theorem Stops.nil : Stops [] := by
  refine ⟨rfl, fun ds after some _ whole => ?_⟩
  exact absurd (List.append_eq_nil_iff.mp whole.symm).1 some

theorem takeRow?_nil (taken : List Char) :
    takeRow? taken [] = if taken = [] then none else some (taken, []) := by
  simp [takeRow?]

theorem takeRow?_cons (taken : List Char) (c : Char) (cs : List Char) :
    takeRow? taken (c :: cs) =
      (if Text.isDecimalDigit c then takeRow? (taken ++ [c]) cs else none).or
        (if taken ≠ [] ∧ endsToken (c :: cs) = true then some (taken, c :: cs) else none) := by
  rw [takeRow?]
  split
  · rename_i result longer
    rw [longer]
    rfl
  · rename_i longer
    rw [longer]
    simp

theorem endsToken_of_takeRow? (some : taken ≠ []) (h : takeRow? taken cs = none)
    {ds after : List Char} (all : ds.all Text.isDecimalDigit = true) (whole : cs = ds ++ after) :
    endsToken after = false := by
  induction cs generalizing taken ds with
  | nil => simp [takeRow?_nil, some] at h
  | cons c cs ih =>
    rw [takeRow?_cons, Option.or_eq_none_iff] at h
    cases ds with
    | nil =>
      rw [List.nil_append] at whole
      simpa [some, whole] using h.2
    | cons d ds =>
      cases whole
      simp only [List.all_cons, Bool.and_eq_true] at all
      rw [if_pos all.1] at h
      exact ih (by simp) h.1 all.2 rfl

theorem takeRow?_eq_some_iff :
    takeRow? taken cs = some (digits, rest) ↔
      ∃ ds, digits = taken ++ ds ∧ digits ≠ [] ∧ cs = ds ++ rest ∧
        ds.all Text.isDecimalDigit = true ∧ Stops rest := by
  induction cs generalizing taken digits rest with
  | nil =>
    rw [takeRow?_nil]
    constructor
    · intro h
      split at h
      · cases h
      · rename_i some
        cases h
        exact ⟨[], by simp, some, rfl, rfl, .nil⟩
    · rintro ⟨ds, rfl, some, whole, -, -⟩
      obtain ⟨rfl, rfl⟩ := List.append_eq_nil_iff.mp whole.symm
      rw [List.append_nil] at some ⊢
      rw [if_neg some]
  | cons c cs ih =>
    rw [takeRow?_cons, Option.or_eq_some_iff]
    constructor
    · rintro (longer | ⟨none, here⟩)
      · split at longer
        · rename_i digit
          obtain ⟨ds, rfl, some, rfl, all, stops⟩ := ih.mp longer
          exact ⟨c :: ds, by simp, some, rfl, by simp [digit, all], stops⟩
        · cases longer
      · split at here
        · rename_i ends
          cases here
          refine ⟨[], by simp, ends.1, rfl, rfl, ends.2, fun ds after some all whole => ?_⟩
          obtain ⟨d, ds, rfl⟩ := List.exists_cons_of_ne_nil some
          cases whole
          simp only [List.all_cons, Bool.and_eq_true] at all
          rw [if_pos all.1] at none
          exact endsToken_of_takeRow? (by simp) none all.2 rfl
        · cases here
    · rintro ⟨ds, rfl, some, whole, all, stops⟩
      cases ds with
      | nil =>
        rw [List.nil_append] at whole
        cases whole
        rw [List.append_nil] at some ⊢
        cases longer :
          if Text.isDecimalDigit c = true then takeRow? (taken ++ [c]) cs else none with
        | none => exact .inr ⟨rfl, if_pos ⟨some, stops.1⟩⟩
        | some result =>
          obtain ⟨digits, rest⟩ := result
          split at longer
          · rename_i digit
            obtain ⟨ds, -, -, rfl, all, ends⟩ := ih.mp longer
            have more := stops.2 (c :: ds) rest (by simp) (by simp [digit, all]) rfl
            rw [ends.1] at more
            cases more
          · cases longer
      | cons d ds =>
        cases whole
        simp only [List.all_cons, Bool.and_eq_true] at all
        left
        rw [if_pos all.1]
        exact ih.mpr ⟨ds, by simp, some, rfl, all.2, stops⟩

theorem exists_markerText {cs : List Char} (dollars : cs.all (· == '$') = true)
    (few : cs.length ≤ 1) : ∃ marked, cs = markerText marked := by
  match cs with
  | [] => exact ⟨false, rfl⟩
  | [c] =>
    simp only [List.all_cons, List.all_nil, Bool.and_true, beq_iff_eq] at dollars
    exact ⟨true, by rw [dollars]; rfl⟩
  | _ :: _ :: _ =>
    simp only [List.length_cons] at few
    omega

theorem not_isDecimalDigit {c : Char} (letter : c.isAlpha = true ∨ c = '$') :
    Text.isDecimalDigit c = false := by
  have code : c.toNat < 48 ∨ 57 < c.toNat ∧ c.toNat < 0x7F := by
    rcases letter with letter | rfl
    · have code := Text.isAlpha_iff.mp letter
      omega
    · exact .inl (by decide)
  rw [← Bool.not_eq_true]
  intro digit
  rcases Text.isDecimalDigit_code digit with ascii | wide
  · have range := Text.isDigit_iff.mp ascii
    omega
  · omega

theorem head?_digits (h : s.Shaped) (rest : List Char) :
    (s.digits ++ rest).head?.any Char.isAlpha = false ∧
      (s.digits ++ rest).head?.any (· == '$') = false := by
  obtain ⟨c, ds, head⟩ := List.exists_cons_of_ne_nil h.some_digit
  have all := h.digits
  rw [head, List.all_cons, Bool.and_eq_true] at all
  rw [head, List.cons_append, List.head?_cons, Option.any_some, Option.any_some,
    ← Bool.not_eq_true, ← Bool.not_eq_true, beq_iff_eq]
  constructor
  · intro letter
    exact absurd all.1 (by simp [not_isDecimalDigit (.inl letter)])
  · intro dollar
    exact absurd all.1 (by simp [not_isDecimalDigit (.inr dollar)])

/-- The address token at the head of a text. -/
theorem takeToken?_eq_some_iff :
    takeToken? cs = some (token, rest) ↔
      ∃ s : Spelling, s.Shaped ∧ token = s.chars ∧ cs = token ++ rest ∧ Stops rest := by
  constructor
  · intro h
    simp only [takeToken?] at h
    split at h
    · cases h
    · rename_i shape
      simp only [Bool.or_eq_true, List.isEmpty_iff, decide_eq_true_eq, not_or, Nat.not_lt] at shape
      obtain ⟨⟨digits, left⟩, row, same⟩ := Option.map_eq_some_iff.mp h
      cases same
      obtain ⟨_, rfl, some, after, all, stops⟩ := takeRow?_eq_some_iff.mp row
      obtain ⟨marked, mark⟩ := exists_markerText List.all_takeWhile shape.2
      refine ⟨⟨cs.takeWhile (· == '$'), _, marked, _⟩,
        ⟨List.all_takeWhile, List.all_takeWhile, all, shape.1.1, shape.1.2, some⟩, ?_, ?_, stops⟩
      · simp only [Spelling.chars, mark, List.append_assoc]
      · simp only [List.append_assoc, ← after, List.takeWhile_append_dropWhile]
  · rintro ⟨s, shaped, rfl, rfl, stops⟩
    obtain ⟨letter, dollar⟩ := head?_digits shaped rest
    have plain : (markerText s.rowMarked ++ (s.digits ++ rest)).head?.any Char.isAlpha = false :=
      not_isAlpha_of_markerText letter
    obtain ⟨marks, unmarked, letters, after⟩ := split_letters shaped.marks shaped.letters
      shaped.some_letter plain
    have dollars : (markerText s.rowMarked).all (· == '$') = true := by
      cases s.rowMarked <;> rfl
    have few : ¬ 1 < (markerText s.rowMarked).length := by
      cases s.rowMarked <;> decide
    have row := takeRow?_eq_some_iff.mpr
      ⟨s.digits, (List.nil_append _).symm, shaped.some_digit, rfl, shaped.digits, stops⟩
    simp only [takeToken?, Spelling.chars, List.append_assoc, marks, unmarked, letters, after,
      Text.takeWhile_run dollars dollar, Text.dropWhile_run dollars dollar, row]
    rw [if_neg]
    · rfl
    · have short := shaped.few_letters
      simp only [Bool.or_eq_true, List.isEmpty_iff, decide_eq_true_eq, not_or, Nat.not_lt]
      exact ⟨⟨shaped.some_letter, short⟩, Nat.le_of_not_lt few⟩

theorem shaped_of_valid (valid : s.Valid) (few : s.letters.length ≤ 3) : s.Shaped where
  marks := valid.marks
  letters := valid.letters
  digits := List.all_eq_true.mpr fun c member =>
    Text.isDecimalDigit_of_isDigit (List.all_eq_true.mp valid.digits c member)
  some_letter := valid.some_letter
  few_letters := few
  some_digit := valid.some_digit

theorem getLast?_isJoining (valid : s.Valid) : s.chars.getLast?.any isJoining = true := by
  obtain ⟨before, last, digits⟩ := (List.eq_nil_or_concat s.digits).resolve_left valid.some_digit
  have all := valid.digits
  rw [digits, List.concat_eq_append, List.all_append, Bool.and_eq_true] at all
  have digit : last.isDigit = true := by simpa using all.2
  rw [Spelling.chars, digits, List.concat_eq_append, ← List.append_assoc, ← List.append_assoc,
    ← List.append_assoc, List.getLast?_concat, Option.any_some]
  simp [isJoining, Char.isAlphanum, digit]

theorem exists_spelling_of_parse {text : String} {a : Address} (h : parse text = .ok a) :
    ∃ s : Spelling, s.Valid ∧ s.Shaped ∧ text.toList = s.chars := by
  obtain ⟨s, valid, whole, -, -, column, index, -⟩ := parse_eq_ok_iff.mp h
  have few := (Column.index_eq_ok index (by rw [String.toList_ofList]; exact valid.letters)).1
  rw [String.toList_ofList] at few
  exact ⟨s, valid, shaped_of_valid valid few, whole⟩

theorem spelling_shaped {a : Address} (grid : a.InGrid) : a.spelling.Shaped := by
  refine shaped_of_valid (spelling_valid grid) (Column.length_letters_le ?_)
  have most := grid.2.1
  simp only [lastColumn] at most
  omega

end Fill

end Spreadsheet
