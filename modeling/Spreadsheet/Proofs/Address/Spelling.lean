import Spreadsheet.Proofs.Address.Column

namespace Spreadsheet.Address

variable {cs marks letters rest : List Char} {text : String} {a : Address}

theorem no_dollar_of_letters (alphabetic : letters.all Char.isAlpha = true) (some : letters ≠ []) :
    (letters ++ rest).head?.any (· == '$') = false := by
  cases letters with
  | nil => exact absurd rfl some
  | cons c letters =>
    simp only [List.all_cons, Bool.and_eq_true] at alphabetic
    have other : c ≠ '$' := by
      rintro rfl
      exact absurd alphabetic.1 (by decide)
    simpa using other

theorem split_letters (dollars : marks.all (· == '$') = true)
    (alphabetic : letters.all Char.isAlpha = true) (some : letters ≠ [])
    (stop : rest.head?.any Char.isAlpha = false) :
    (marks ++ (letters ++ rest)).takeWhile (· == '$') = marks ∧
      (marks ++ (letters ++ rest)).dropWhile (· == '$') = letters ++ rest ∧
      (letters ++ rest).takeWhile Char.isAlpha = letters ∧
      (letters ++ rest).dropWhile Char.isAlpha = rest :=
  have first := no_dollar_of_letters alphabetic some
  ⟨Text.takeWhile_run dollars first, Text.dropWhile_run dollars first,
    Text.takeWhile_run alphabetic stop, Text.dropWhile_run alphabetic stop⟩

theorem not_isAlpha_of_markerText {marked : Bool} (stop : rest.head?.any Char.isAlpha = false) :
    (markerText marked ++ rest).head?.any Char.isAlpha = false := by
  cases marked with
  | true => rfl
  | false => exact stop

theorem markerText_takeRowMark (cs : List Char) :
    markerText (takeRowMark cs).1 ++ (takeRowMark cs).2 = cs := by
  unfold takeRowMark
  split <;> rfl

theorem takeRowMark_markerText {rowMarked : Bool} (stop : rest.head? ≠ some '$') :
    takeRowMark (markerText rowMarked ++ rest) = (rowMarked, rest) := by
  cases rowMarked with
  | true => rfl
  | false =>
    change takeRowMark rest = (false, rest)
    unfold takeRowMark
    split
    · exact absurd rfl stop
    · rfl

namespace Spelling

def chars (s : Spelling) : List Char :=
  s.columnMarks ++ (s.letters ++ (markerText s.rowMarked ++ s.digits))

structure Valid (s : Spelling) : Prop where
  marks : s.columnMarks.all (· == '$') = true
  letters : s.letters.all Char.isAlpha = true
  digits : s.digits.all Char.isDigit = true
  some_letter : s.letters ≠ []
  some_digit : s.digits ≠ []

theorem Valid.head?_digits {s : Spelling} (h : s.Valid) :
    ∃ c, s.digits.head? = some c ∧ c.isDigit = true := by
  cases digits : s.digits with
  | nil => exact absurd digits h.some_digit
  | cons c cs =>
    have all := h.digits
    rw [digits, List.all_cons, Bool.and_eq_true] at all
    exact ⟨c, rfl, all.1⟩

theorem Valid.split {s : Spelling} (h : s.Valid) :
    s.chars.takeWhile (· == '$') = s.columnMarks ∧
      s.chars.dropWhile (· == '$') = s.letters ++ (markerText s.rowMarked ++ s.digits) ∧
      (s.letters ++ (markerText s.rowMarked ++ s.digits)).takeWhile Char.isAlpha = s.letters ∧
      (s.letters ++ (markerText s.rowMarked ++ s.digits)).dropWhile Char.isAlpha =
        markerText s.rowMarked ++ s.digits := by
  obtain ⟨c, head, digit⟩ := h.head?_digits
  refine split_letters h.marks h.letters h.some_letter (not_isAlpha_of_markerText ?_)
  rw [head, Option.any_some]
  cases alpha : c.isAlpha with
  | false => rfl
  | true =>
    have letter := Text.isAlpha_iff.mp alpha
    have code := Text.isDigit_iff.mp digit
    omega

theorem ofChars?_eq_some_iff {s : Spelling} : ofChars? cs = some s ↔ s.Valid ∧ cs = s.chars := by
  constructor
  · intro h
    simp only [ofChars?] at h
    split at h
    · cases h
    · rename_i shape
      simp only [Bool.or_eq_true, List.isEmpty_iff, Bool.not_eq_true', not_or,
        Bool.not_eq_false] at shape
      cases h
      refine ⟨⟨?_, ?_, shape.2, shape.1.1, shape.1.2⟩, ?_⟩
      · exact List.all_takeWhile
      · exact List.all_takeWhile
      · simp only [chars]
        rw [markerText_takeRowMark, List.takeWhile_append_dropWhile,
          List.takeWhile_append_dropWhile]
  · rintro ⟨valid, rfl⟩
    obtain ⟨marks, unmarked, letters, after⟩ := valid.split
    obtain ⟨c, head, digit⟩ := valid.head?_digits
    have mark : takeRowMark (markerText s.rowMarked ++ s.digits) = (s.rowMarked, s.digits) := by
      refine takeRowMark_markerText ?_
      rw [head]
      rintro ⟨⟩
      exact absurd digit (by decide)
    simp only [ofChars?, marks, unmarked, letters, after, mark]
    rw [if_neg]
    simp [valid.some_letter, valid.some_digit, valid.digits]

end Spelling

/-- What an accepted text is made of, and what it is read as. -/
theorem parse_eq_ok_iff :
    parse text = .ok a ↔ ∃ s : Spelling, s.Valid ∧ text.toList = s.chars ∧
      s.digits.length ≤ digitLimit ∧ Text.digitsValue s.digits ≠ 0 ∧
      ∃ column, Column.index (String.ofList s.letters) = .ok column ∧
        a = ⟨column, Text.digitsValue s.digits - 1, ! s.columnMarks.isEmpty, s.rowMarked⟩ := by
  constructor
  · intro h
    unfold parse at h
    split at h
    · cases h
    · rename_i s found
      obtain ⟨valid, same⟩ := Spelling.ofChars?_eq_some_iff.mp found
      split at h
      · cases h
      · rename_i short
        dsimp only at h
        split at h
        · cases h
        · rename_i positive
          split at h
          · cases h
          · rename_i column index
            cases h
            exact ⟨s, valid, same, Nat.le_of_not_lt short, positive, column, index, rfl⟩
  · rintro ⟨s, valid, same, short, positive, column, index, rfl⟩
    unfold parse
    rw [Spelling.ofChars?_eq_some_iff.mpr ⟨valid, same⟩]
    simp only [if_neg (Nat.not_lt.mpr short), if_neg positive, index]

theorem inGrid_of_parse (h : parse text = .ok a) : a.InGrid := by
  obtain ⟨s, valid, -, -, positive, column, index, rfl⟩ := parse_eq_ok_iff.mp h
  have grid := Column.index_eq_ok index (by rw [String.toList_ofList]; exact valid.letters)
  refine ⟨grid.2.1, grid.2.2, ?_⟩
  dsimp only
  omega

theorem digitsValue_eq_ofDigitChars {digits : List Char} (all : digits.all Char.isDigit = true) :
    Text.digitsValue digits = Nat.ofDigitChars 10 digits 0 := by
  have agree : ∀ start : Nat,
      digits.foldl (fun total c => 10 * total + (Text.digitValue? c).getD 0) start =
        Nat.ofDigitChars 10 digits start := by
    induction digits with
    | nil => exact fun _ => Nat.ofDigitChars_nil.symm
    | cons c cs ih =>
      intro start
      simp only [List.all_cons, Bool.and_eq_true] at all
      rw [List.foldl_cons, Text.digitValue?_of_isDigit all.1, Nat.ofDigitChars_cons]
      exact ih all.2 _
  exact agree 0

theorem digitsValue_toDigits (n : Nat) : Text.digitsValue (Nat.toDigits 10 n) = n := by
  have digits : (Nat.toDigits 10 n).all Char.isDigit = true :=
    List.all_eq_true.mpr fun c member => Nat.isDigit_of_mem_toDigits (by decide) (by decide) member
  rw [digitsValue_eq_ofDigitChars digits, Nat.ofDigitChars_ten_toDigits]

theorem digitsValue_lt {digits : List Char} (all : digits.all Char.isDigit = true) :
    Text.digitsValue digits < 10 ^ digits.length := by
  have bound : ∀ start : Nat,
      digits.foldl (fun total c => 10 * total + (Text.digitValue? c).getD 0) start <
        (start + 1) * 10 ^ digits.length := by
    induction digits with
    | nil => simp
    | cons c cs ih =>
      intro start
      simp only [List.all_cons, Bool.and_eq_true] at all
      have code := Text.isDigit_iff.mp all.1
      rw [List.foldl_cons, Text.digitValue?_of_isDigit all.1, List.length_cons, Nat.pow_succ']
      refine Nat.lt_of_lt_of_le (ih all.2 _) ?_
      rw [← Nat.mul_assoc]
      refine Nat.mul_le_mul_right _ ?_
      rw [Option.getD_some]
      omega
  have whole := bound 0
  rw [Nat.zero_add, Nat.one_mul] at whole
  exact whole

theorem natCast_lt_pow_iff {n k : Nat} : (n : Int) < 10 ^ k ↔ n < 10 ^ k := by
  exact_mod_cast Iff.rfl

/-- A row number that can be written: it has no more digits than can be read. -/
def RowFits (a : Address) : Prop := a.row + 1 < 10 ^ digitLimit

theorem rowFits_iff (row : 0 ≤ a.row) : a.RowFits ↔ (a.row + 1).toNat < 10 ^ digitLimit := by
  rw [← natCast_lt_pow_iff, Int.toNat_of_nonneg (by omega)]
  rfl

theorem rowFits_of_lt (small : a.row < 9) : a.RowFits := by
  have few : 10 ^ 1 ≤ 10 ^ digitLimit := Nat.pow_le_pow_right (by decide) (by decide)
  have bound : ((9 : Nat) : Int) < 10 ^ digitLimit :=
    natCast_lt_pow_iff.mpr (Nat.lt_of_lt_of_le (by decide) few)
  have row : a.row + 1 ≤ 9 := by omega
  exact Int.lt_of_le_of_lt row bound

theorem rowFits_of_parse (h : parse text = .ok a) : a.RowFits := by
  have row := (inGrid_of_parse h).2.2
  obtain ⟨s, valid, -, short, positive, column, -, rfl⟩ := parse_eq_ok_iff.mp h
  rw [rowFits_iff row]
  have least := digitsValue_lt valid.digits
  have most := Nat.pow_le_pow_right (by decide : 0 < 10) short
  have same : ((Text.digitsValue s.digits : Int) - 1 + 1).toNat = Text.digitsValue s.digits := by
    omega
  rw [same]
  exact Nat.lt_of_lt_of_le least most

/-- The parts of the text that is written for an address. -/
def spelling (a : Address) : Spelling :=
  ⟨markerText a.absoluteColumn, Column.letters (a.column + 1).toNat, a.absoluteRow,
    Nat.toDigits 10 (a.row + 1).toNat⟩

theorem textChars_eq (grid : a.InGrid) : a.textChars = a.spelling.chars := by
  obtain ⟨n, same⟩ := Int.eq_ofNat_of_zero_le (show 0 ≤ a.row + 1 by have := grid.2.2; omega)
  have digits : (toString (a.row + 1)).toList = Nat.toDigits 10 (a.row + 1).toNat := by
    rw [same]
    exact Nat.toList_repr
  simp only [textChars, Spelling.chars, spelling, digits, List.append_assoc]

theorem spelling_valid (grid : a.InGrid) : a.spelling.Valid := by
  have column := grid.1
  refine ⟨?_, ?_, ?_, Column.letters_ne_nil (by omega), Nat.toDigits_ne_nil⟩
  · unfold spelling
    cases a.absoluteColumn <;> rfl
  · exact List.all_eq_true.mpr fun c member =>
      Column.isAlpha_of_isCapital (Column.isCapital_of_mem_letters member)
  · exact List.all_eq_true.mpr fun c member =>
      Nat.isDigit_of_mem_toDigits (by decide) (by decide) member

theorem length_digits_le (grid : a.InGrid) (fits : a.RowFits) :
    (Nat.toDigits 10 (a.row + 1).toNat).length ≤ digitLimit := by
  rw [Nat.length_toDigits_le_iff (by decide) (by decide)]
  exact (rowFits_iff grid.2.2).mp fits

theorem parse_text (grid : a.InGrid) (fits : a.RowFits) : parse a.text = .ok a := by
  have row := grid.2.2
  refine parse_eq_ok_iff.mpr ⟨a.spelling, spelling_valid grid, ?_, length_digits_le grid fits, ?_,
    a.column, Column.index_letters grid.1 grid.2.1, ?_⟩
  · rw [text, String.toList_ofList, textChars_eq grid]
  · rw [spelling, digitsValue_toDigits]
    omega
  · have marked : ∀ b : Bool, (! (markerText b).isEmpty) = b := by decide
    have same : ((a.row + 1).toNat : Int) - 1 = a.row := by omega
    simp only [spelling, digitsValue_toDigits, marked, same]

theorem format_eq_text (grid : a.InGrid) (fits : a.RowFits) : a.format = .ok a.text := by
  obtain ⟨least, most, row⟩ := grid
  have inside : ¬ (a.column < 0 ∨ lastColumn < a.column) := by omega
  have short : IsWritable (a.row + 1) := by
    have size : (a.row + 1).natAbs = (a.row + 1).toNat := by omega
    rw [IsWritable, size, Nat.pow_eq, ← rowFits_iff row]
    exact fits
  unfold format
  rw [if_neg inside, if_pos short]

end Spreadsheet.Address
