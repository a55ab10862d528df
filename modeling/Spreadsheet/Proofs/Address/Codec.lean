import Spreadsheet.Proofs.Address.Spelling

namespace Spreadsheet

namespace Column

variable {letters : List Char} {column : Int}

/-- The number of the column that letters in any case name. -/
def numberOf (letters : List Char) : Nat := number (letters.map Char.toUpper)

theorem isCapital_toUpper {c : Char} (letter : c.isAlpha = true) : isCapital c.toUpper = true := by
  have code := Text.isAlpha_iff.mp letter
  rw [isCapital_iff]
  by_cases small : c.isLower = true
  · have code := Text.isLower_iff.mp small
    rw [Char.toUpper_eq_of_isLower small, Char.toNat_ofNat,
      if_pos (by unfold Nat.isValidChar; omega)]
    omega
  · rw [Char.toUpper_eq_of_not_isLower small]
    rw [Text.isLower_iff] at small
    omega

theorem all_isCapital_toUpper (alphabetic : letters.all Char.isAlpha = true) :
    (letters.map Char.toUpper).all isCapital = true := by
  refine List.all_eq_true.mpr fun c member => ?_
  obtain ⟨d, inside, rfl⟩ := List.mem_map.mp member
  exact isCapital_toUpper (List.all_eq_true.mp alphabetic d inside)

theorem numberOf_pos (alphabetic : letters.all Char.isAlpha = true) (some : letters ≠ []) :
    1 ≤ numberOf letters :=
  number_pos (all_isCapital_toUpper alphabetic) (by simpa using some)

theorem letters_numberOf (alphabetic : letters.all Char.isAlpha = true) :
    Column.letters (numberOf letters) = letters.map Char.toUpper :=
  letters_number (all_isCapital_toUpper alphabetic)

theorem index_eq_ok_iff (alphabetic : letters.all Char.isAlpha = true) (some : letters ≠ []) :
    index (String.ofList letters) = .ok column ↔
      numberOf letters ≤ 16384 ∧ column = numberOf letters - 1 := by
  have low : ∀ c ∈ letters, c.toNat < 0xB5 := fun c member => by
    have code := Text.isAlpha_iff.mp (List.all_eq_true.mp alphabetic c member)
    omega
  have capitals := all_isCapital_toUpper alphabetic
  have positive := List.length_pos_iff.mpr some
  unfold numberOf
  simp only [index, String.toList_ofList, Text.upperChars_eq_map low, List.length_map, capitals,
    and_true, Address.lastColumn]
  constructor
  · intro found
    split at found
    · split at found
      · cases found
      · cases found
        omega
    · cases found
  · rintro ⟨grid, rfl⟩
    have short : letters.length ≤ 3 := by
      have bound := length_le_of_number_lt (k := 3) capitals (by omega)
      rwa [List.length_map] at bound
    rw [if_pos ⟨positive, short⟩, if_neg (by omega)]

end Column

namespace Address

variable {digits : List Char} {s s' : Spelling} {a : Address} {text : String}

theorem digitChar_of_isDigit {c : Char} (digit : c.isDigit = true) :
    Nat.digitChar (c.toNat - 48) = c := by
  have code := Text.isDigit_iff.mp digit
  apply Char.toNat_inj.mp
  rw [Nat.toNat_digitChar_of_lt_ten (by omega)]
  omega

theorem toDigits_append {n : Nat} (positive : 0 < n) (all : digits.all Char.isDigit = true) :
    Nat.toDigits 10 n ++ digits = Nat.toDigits 10 (Nat.ofDigitChars 10 digits n) := by
  induction digits generalizing n with
  | nil => rw [List.append_nil, Nat.ofDigitChars_nil]
  | cons c digits ih =>
    simp only [List.all_cons, Bool.and_eq_true] at all
    have code := Text.isDigit_iff.mp all.1
    have small : c.toNat - 48 < 10 := by omega
    have last := Nat.toDigits_append_toDigits (b := 10) (by decide) positive small
    rw [Nat.toDigits_of_lt_base small, digitChar_of_isDigit all.1] at last
    rw [Nat.ofDigitChars_cons, ← List.singleton_append, ← List.append_assoc, last]
    exact ih (by omega) all.2

theorem ofDigitChars_pos_iff (all : digits.all Char.isDigit = true) :
    0 < Nat.ofDigitChars 10 digits 0 ↔ ∃ c ∈ digits, c ≠ '0' := by
  induction digits with
  | nil => simp
  | cons c digits ih =>
    simp only [List.all_cons, Bool.and_eq_true] at all
    rw [Nat.ofDigitChars_cons, Nat.ofDigitChars_eq_ofDigitChars_zero]
    by_cases zero : c = '0'
    · subst zero
      simpa using ih all.2
    · have code := Text.isDigit_iff.mp all.1
      have other : c.toNat ≠ 48 := fun same => zero (Char.toNat_inj.mp same)
      have positive : 0 < 10 ^ digits.length * (10 * 0 + (c.toNat - '0'.toNat)) := by
        apply Nat.mul_pos (Nat.pow_pos (by decide))
        change 0 < 10 * 0 + (c.toNat - 48)
        omega
      exact ⟨fun _ => ⟨c, List.mem_cons_self, zero⟩, fun _ => by omega⟩

theorem toDigits_ofDigitChars (all : digits.all Char.isDigit = true)
    (positive : 0 < Nat.ofDigitChars 10 digits 0) :
    Nat.toDigits 10 (Nat.ofDigitChars 10 digits 0) = digits.dropWhile (· == '0') := by
  induction digits with
  | nil => cases positive
  | cons c digits ih =>
    simp only [List.all_cons, Bool.and_eq_true] at all
    rw [Nat.ofDigitChars_cons] at positive ⊢
    by_cases zero : c = '0'
    · subst zero
      exact ih all.2 positive
    · have code := Text.isDigit_iff.mp all.1
      have other : c.toNat ≠ 48 := fun same => zero (Char.toNat_inj.mp same)
      have value : 10 * 0 + (c.toNat - '0'.toNat) = c.toNat - 48 := by simp
      rw [List.dropWhile_cons_of_neg (by simpa using zero), value,
        ← toDigits_append (by omega) all.2, Nat.toDigits_of_lt_base (by omega),
        digitChar_of_isDigit all.1]
      rfl

namespace Spelling

def address (s : Spelling) : Address :=
  ⟨Column.numberOf s.letters - 1, Nat.ofDigitChars 10 s.digits 0 - 1, ! s.columnMarks.isEmpty,
    s.rowMarked⟩

/-- The parts of an address's text with one dollar at most before the column, capitals, and no zero
    in front of the row number. -/
def canonical (s : Spelling) : Spelling :=
  ⟨markerText (! s.columnMarks.isEmpty), s.letters.map Char.toUpper, s.rowMarked,
    s.digits.dropWhile (· == '0')⟩

/-- The column is one of the grid, and the row number is not zero and not too long to be read. -/
structure Named (s : Spelling) : Prop where
  column : 1 ≤ Column.numberOf s.letters ∧ Column.numberOf s.letters ≤ 16384
  digits : 1 ≤ s.digits.length ∧ s.digits.length ≤ 4300
  row : ∃ c ∈ s.digits, c ≠ '0'

theorem Valid.eq_of_chars (valid : s.Valid) (valid' : s'.Valid) (same : s.chars = s'.chars) :
    s = s' := by
  have found := ofChars?_eq_some_iff.mpr ⟨valid, rfl⟩
  rw [ofChars?_eq_some_iff.mpr ⟨valid', same⟩] at found
  exact (Option.some.inj found).symm

end Spelling

theorem parse_chars_eq_ok_iff (valid : s.Valid) :
    parse (String.ofList s.chars) = .ok a ↔ s.Named ∧ a = s.address := by
  have value := digitsValue_eq_ofDigitChars valid.digits
  have positive := ofDigitChars_pos_iff valid.digits
  have index : ∀ column, Column.index (String.ofList s.letters) = .ok column ↔
      Column.numberOf s.letters ≤ 16384 ∧ column = Column.numberOf s.letters - 1 :=
    fun _ => Column.index_eq_ok_iff valid.letters valid.some_letter
  rw [parse_eq_ok_iff]
  constructor
  · rintro ⟨s', valid', whole, short, nonzero, column, found, rfl⟩
    rw [String.toList_ofList] at whole
    cases valid.eq_of_chars valid' whole
    obtain ⟨grid, rfl⟩ := (index column).mp found
    rw [value] at nonzero ⊢
    exact ⟨⟨⟨Column.numberOf_pos valid.letters valid.some_letter, grid⟩,
      ⟨List.length_pos_iff.mpr valid.some_digit, short⟩, positive.mp (by omega)⟩, rfl⟩
  · rintro ⟨named, rfl⟩
    have nonzero := positive.mpr named.row
    refine ⟨s, valid, String.toList_ofList, named.digits.2, ?_, _,
      (index _).mpr ⟨named.column.2, rfl⟩, ?_⟩
    · rw [value]
      omega
    · rw [value]
      rfl

theorem spelling_address (valid : s.Valid) (named : s.Named) :
    s.address.spelling = s.canonical := by
  have positive := (ofDigitChars_pos_iff valid.digits).mpr named.row
  have column := named.column.1
  have number : ((Column.numberOf s.letters : Int) - 1 + 1).toNat = Column.numberOf s.letters := by
    omega
  have row : ((Nat.ofDigitChars 10 s.digits 0 : Int) - 1 + 1).toNat =
      Nat.ofDigitChars 10 s.digits 0 := by
    omega
  simp only [spelling, Spelling.address, Spelling.canonical, number, row,
    Column.letters_numberOf valid.letters, toDigits_ofDigitChars valid.digits positive]

/-- The texts that are read as addresses are dollars, letters of a column of the grid, a dollar or
    none, and at most 4300 digits that are not all zero. What is written for an address is read as
    it, and what is written for an address that was read is its text in canonical form. -/
theorem parse_exact :
    (∀ text a, parse text = .ok a ↔
      ∃ s : Spelling, s.Valid ∧ text.toList = s.chars ∧ s.Named ∧ a = s.address) ∧
    (∀ a : Address, a.InGrid → a.RowFits → ∃ text, a.format = .ok text ∧ parse text = .ok a) ∧
    ∀ (s : Spelling) (a : Address), s.Valid → parse (String.ofList s.chars) = .ok a →
      a.format = .ok (String.ofList s.canonical.chars) := by
  refine ⟨fun text a => ⟨fun read => ?_, ?_⟩, fun a grid fits => ?_, fun s a valid read => ?_⟩
  · obtain ⟨s, valid, whole, -⟩ := parse_eq_ok_iff.mp read
    rw [← String.ofList_toList (s := text), whole, parse_chars_eq_ok_iff valid] at read
    exact ⟨s, valid, whole, read⟩
  · rintro ⟨s, valid, whole, named, rfl⟩
    rw [← String.ofList_toList (s := text), whole]
    exact (parse_chars_eq_ok_iff valid).mpr ⟨named, rfl⟩
  · exact ⟨a.text, format_eq_text grid fits, parse_text grid fits⟩
  · have grid := inGrid_of_parse read
    have fits := rowFits_of_parse read
    obtain ⟨named, rfl⟩ := (parse_chars_eq_ok_iff valid).mp read
    rw [format_eq_text grid fits, Address.text, textChars_eq grid, spelling_address valid named]

theorem parse_exact_of_dollars :
    let s : Spelling := ⟨['$', '$'], ['a', 'B'], true, ['0', '0', '7']⟩
    let a : Address := ⟨27, 6, true, true⟩
    s.Valid ∧ "$$aB$007".toList = s.chars ∧ s.Named ∧ a = s.address ∧
      parse "$$aB$007" = .ok a ∧ a.InGrid ∧ a.RowFits ∧
      (∃ text, a.format = .ok text ∧ parse text = .ok a) ∧ a.format = .ok "$AB$7" := by
  intro s a
  obtain ⟨reads, writes, keeps⟩ := parse_exact
  have valid : s.Valid := ⟨by decide, by decide, by decide, by decide, by decide⟩
  have named : s.Named := ⟨by decide, by decide, '7', by decide, by decide⟩
  have read : parse "$$aB$007" = .ok a := (reads _ a).mpr ⟨s, valid, by decide, named, by decide⟩
  have grid : a.InGrid := by decide
  have fits : a.RowFits := rowFits_of_lt (by decide)
  exact ⟨valid, by decide, named, by decide, read, grid, fits, writes a grid fits,
    keeps s a valid read⟩

end Address

end Spreadsheet
