import Spreadsheet.Proofs.Address.Spelling
import Spreadsheet.Proofs.Token.Spelling

namespace Spreadsheet.Token

variable {name : String} {s : Address.Spelling} {a : Address}

theorem IsWord.upperChars_eq_map {w : List Char} (h : IsWord w) :
    Text.upperChars w = w.map Char.toUpper :=
  Text.upperChars_eq_map fun c member =>
    (isMark_of_isWordChar (List.all_eq_true.mp h.2 c member)).lt

theorem letters_of_boolean {w : List Char} {b : Bool} (h : Kind.ofWord w = .boolean b) :
    w.all Char.isAlpha = true := by
  have capitals : (w.map Char.toUpper).all Char.isAlpha = true := by
    rw [Kind.map_toUpper_of_boolean h]
    cases b <;> decide
  simpa only [List.all_map, Function.comp_def, Char.isAlpha_toUpper_eq_isAlpha] using capitals

theorem Spells.eq_text {spelling : List Char} {kind : Kind} (h : Spells spelling kind) :
    (∃ b, kind = .boolean b) ∨ spelling = kind.text.toList := by
  cases h with
  | word _ =>
    rcases Kind.ofWord_cases spelling with boolean | identifier
    · exact .inl boolean
    · rw [identifier]
      exact .inr String.toList_ofList.symm
  | number _ => exact .inr String.toList_ofList.symm
  | operator | leftParen | rightParen | comma => exact .inr rfl

theorem Spells.identifier {spelling : List Char} (h : Spells spelling (.identifier name)) :
    spelling = name.toList := h.eq_text.resolve_left nofun

theorem Spells.eq_number {spelling : List Char} {text : String} (h : Spells spelling (.number text)) :
    spelling = text.toList := h.eq_text.resolve_left nofun

theorem spells_boolean (b : Bool) : Spells (Kind.boolean b).text.toList (.boolean b) := by
  have word : IsWord (Kind.boolean b).text.toList := by cases b <;> exact ⟨rfl, rfl⟩
  have spells := Spells.word word
  cases b <;> exact spells

theorem isWord_chars (valid : s.Valid) : IsWord s.chars := by
  have start : ∀ c, c.isAlpha = true → isWordStart c = true := by
    intro c letter
    simp [isWordStart, letter]
  constructor
  · cases marks : s.columnMarks with
    | nil =>
      obtain ⟨c, cs, letters⟩ := List.exists_cons_of_ne_nil valid.some_letter
      have letter := List.all_eq_true.mp valid.letters c (letters ▸ List.mem_cons_self)
      rw [Address.Spelling.chars, marks, letters]
      exact start c letter
    | cons c cs =>
      have dollar := List.all_eq_true.mp valid.marks c (marks ▸ List.mem_cons_self)
      rw [Address.Spelling.chars, marks, beq_iff_eq.mp dollar]
      rfl
  · have mark : (Address.markerText s.rowMarked).all isWordChar = true := by
      cases s.rowMarked <;> rfl
    rw [Address.Spelling.chars, List.all_append, List.all_append, List.all_append, mark]
    simp only [Bool.and_eq_true, List.all_eq_true, Bool.true_and]
    refine ⟨fun c member => ?_, fun c member => ?_, fun c member => ?_⟩
    · have dollar := List.all_eq_true.mp valid.marks c member
      rw [beq_iff_eq.mp dollar]
      rfl
    · simp [isWordChar, Char.isAlphanum, List.all_eq_true.mp valid.letters c member]
    · simp [isWordChar, Char.isAlphanum, List.all_eq_true.mp valid.digits c member]

theorem spells_chars (valid : s.Valid) : Spells s.chars (.identifier (String.ofList s.chars)) := by
  have spells := Spells.word (isWord_chars valid)
  rcases Kind.ofWord_cases s.chars with ⟨b, boolean⟩ | identifier
  · obtain ⟨c, head, digit⟩ := valid.head?_digits
    have member : c ∈ s.chars := by
      simp [Address.Spelling.chars, List.mem_of_head? head]
    have letter := List.all_eq_true.mp (letters_of_boolean boolean) c member
    have code := Text.isDigit_iff.mp digit
    have code' := Text.isAlpha_iff.mp letter
    omega
  · rwa [identifier] at spells

theorem spells_of_parse (valid : Address.parse name = .ok a) :
    Spells name.toList (.identifier name) := by
  obtain ⟨s, parts, whole, -⟩ := Address.parse_eq_ok_iff.mp valid
  have spells := spells_chars parts
  rwa [← whole, String.ofList_toList] at spells

end Spreadsheet.Token
