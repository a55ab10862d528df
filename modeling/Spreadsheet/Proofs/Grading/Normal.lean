import Spreadsheet.Grading
import Spreadsheet.Proofs.Fill.Parsing
import Spreadsheet.Proofs.Token.Number

namespace Spreadsheet

open Token

variable {name : String} {a : Address}

theorem Column.index_upper {letters : List Char} {column : Int}
    (alphabetic : letters.all Char.isAlpha = true)
    (found : index (String.ofList letters) = .ok column) :
    index (String.ofList (Text.upperChars letters)) = .ok column := by
  have low : ∀ c ∈ letters, c.toNat < 0xB5 := fun c member => by
    have code := Text.isAlpha_iff.mp (List.all_eq_true.mp alphabetic c member)
    omega
  simp only [index, String.toList_ofList, Text.upperChars_upperChars low] at found ⊢
  split at found
  · rename_i shape
    rw [if_pos shape]
    split at found
    · cases found
    · rename_i grid
      rw [if_neg grid]
      exact found
  · cases found

namespace Address

theorem upperChars_chars {s : Spelling} (valid : s.Valid) :
    Text.upperChars s.chars = { s with letters := Text.upperChars s.letters }.chars := by
  have marks : Text.upperChars s.columnMarks = s.columnMarks :=
    Text.upperChars_of_lt fun c member => by
      rw [beq_iff_eq.mp (List.all_eq_true.mp valid.marks c member)]
      decide
  have mark : Text.upperChars (markerText s.rowMarked) = markerText s.rowMarked := by
    cases s.rowMarked <;> rfl
  simp only [Spelling.chars, Text.upperChars_append, marks, mark,
    Text.upperChars_digits valid.digits]

theorem Spelling.Valid.upper {s : Spelling} (valid : s.Valid) :
    Spelling.Valid { s with letters := Text.upperChars s.letters } := by
  have low : ∀ c ∈ s.letters, c.toNat < 0xB5 := fun c member => by
    have code := Text.isAlpha_iff.mp (List.all_eq_true.mp valid.letters c member)
    omega
  have capitals := Text.upperChars_eq_map low
  refine ⟨valid.marks, ?_, valid.digits, ?_, valid.some_digit⟩
  · simp only [capitals, List.all_map, Function.comp_def, Char.isAlpha_toUpper_eq_isAlpha]
    exact valid.letters
  · simpa only [capitals, ne_eq, List.map_eq_nil_iff] using valid.some_letter

theorem parse_upper (valid : parse name = .ok a) : parse (Text.upper name) = .ok a := by
  obtain ⟨s, parts, whole, short, positive, column, index, rfl⟩ := parse_eq_ok_iff.mp valid
  refine parse_eq_ok_iff.mpr ⟨{ s with letters := Text.upperChars s.letters }, parts.upper, ?_,
    short, positive, column, Column.index_upper parts.letters index, rfl⟩
  rw [Text.upper, String.toList_ofList, whole, upperChars_chars parts]

end Address

namespace Token

variable {c : Char} {w spelling : List Char} {kind : Kind}

theorem isWordStart_toUpper (start : isWordStart c = true) : isWordStart c.toUpper = true := by
  by_cases small : c.isLower = true
  · simp [isWordStart, Char.isAlpha, small]
  · rwa [Char.toUpper_eq_of_not_isLower small]

theorem isWordChar_toUpper (inside : isWordChar c = true) : isWordChar c.toUpper = true := by
  by_cases small : c.isLower = true
  · simp [isWordChar, Char.isAlphanum, Char.isAlpha, small]
  · rwa [Char.toUpper_eq_of_not_isLower small]

def Kind.capital : Kind → Kind
  | .identifier name => .identifier (Text.upper name)
  | .number text => .number (Text.upper text)
  | kind => kind

theorem IsWord.upperChars (h : IsWord w) : IsWord (Text.upperChars w) := by
  rw [h.upperChars_eq_map]
  cases w with
  | nil => cases h.1
  | cons c w =>
    refine ⟨isWordStart_toUpper h.1, ?_⟩
    rw [List.all_map]
    exact List.all_eq_true.mpr fun d member =>
      isWordChar_toUpper (List.all_eq_true.mp h.2 d member)

theorem IsWord.ofWord_upperChars (h : IsWord w) :
    Kind.ofWord (Text.upperChars w) = (Kind.ofWord w).capital := by
  have again : (Text.upperChars w).map Char.toUpper = w.map Char.toUpper := by
    rw [h.upperChars_eq_map, List.map_map]
    simp only [Function.comp_def, Char.toUpper_toUpper_eq_toUpper]
  simp only [Kind.ofWord, again]
  split
  · rfl
  · split
    · rfl
    · simp only [Kind.capital, Text.upper, String.toList_ofList]

theorem Spells.upperChars (h : Spells spelling kind) :
    Spells (Text.upperChars spelling) kind.capital := by
  cases h with
  | word h => exact h.ofWord_upperChars ▸ .word h.upperChars
  | @number m exponent h =>
    obtain ⟨chars, writes, -⟩ := h.upperChars
    simp only [Kind.capital, Text.upper, String.toList_ofList, chars]
    exact .number writes
  | operator op =>
    have capitals : op.text.toList.all (fun c => c.toNat < 97) = true := by cases op <;> decide
    rw [Text.upperChars_of_lt (by simpa using capitals)]
    exact .operator op
  | leftParen => exact .leftParen
  | rightParen => exact .rightParen
  | comma => exact .comma

theorem Spells.floatOfText_upper {text : String} (h : Spells spelling (.number text)) :
    Numeral.floatOfText (Text.upper text) = Numeral.floatOfText text := by
  obtain ⟨m, exponent, writes, whole⟩ := h.exists_writes
  simp only [Numeral.floatOfText, Text.upper, String.toList_ofList, ← h.eq_number, whole,
    writes.upperChars.2.2]

theorem Function.lookup?_upper (low : ∀ c ∈ name.toList, c.toNat < 0xB5) :
    Function.lookup? (Text.upper name) = Function.lookup? name := by
  simp only [Function.lookup?, Text.upper, String.toList_ofList, Text.upperChars_upperChars low]

end Token

def Reference.capital (r : Reference) : Reference := ⟨r.address, Text.upper r.text⟩

namespace Expr

theorem unspelled_capital (e : Expr) :
    (e.mapReferences Reference.capital).unspelled = e.unspelled :=
  mapReferences_mapReferences _ _ e

end Expr

namespace Token

variable {x : Lexeme} {xs : List Lexeme} {last : List Char}

namespace Lexeme

/-- A lexeme in capitals, without the blanks in front of it. -/
def capital (x : Lexeme) : Lexeme := ⟨[], Text.upperChars x.spelling, x.kind.capital⟩

theorem capital_valid (valid : x.Valid) : x.capital.Valid := ⟨rfl, valid.spells.upperChars⟩

theorem capital_respells (valid : x.Valid) (known : x.kind.IsKnown) :
    x.kind.Respells Reference.capital x.capital.kind := by
  have spells := valid.spells
  unfold capital
  dsimp only
  cases kind : x.kind with
  | identifier name =>
    rw [kind] at known spells
    rcases known with ⟨a, address⟩ | ⟨f, function⟩
    · exact @Kind.Respells.reference _ ⟨a, name⟩ address (Address.parse_upper address)
    · refine .function function ?_
      rw [Function.lookup?_upper, function]
      rw [← spells.identifier]
      exact fun c member => (spells.isMark member).lt
  | number text =>
    rw [kind] at spells
    exact .number spells.floatOfText_upper
  | _ => exact .refl nofun

theorem removeBlanks_join (valid : ∀ x ∈ xs, x.Valid) (blank : last.all Text.isBlank = true) :
    Text.removeBlanks (join xs last) = xs.flatMap Lexeme.spelling := by
  have none : ∀ cs : List Char, cs.all Text.isBlank = true → Text.removeBlanks cs = [] := by
    intro cs blank
    refine List.filter_eq_nil_iff.mpr fun c member => ?_
    simp [List.all_eq_true.mp blank c member]
  induction xs with
  | nil => exact none last blank
  | cons x xs ih =>
    have first := valid x List.mem_cons_self
    have rest := ih fun y member => valid y (List.mem_cons_of_mem _ member)
    have spelling : Text.removeBlanks x.spelling = x.spelling := by
      refine List.filter_eq_self.mpr fun c member => ?_
      rw [(first.spells.isMark member).not_isBlank]
      rfl
    have gap := none x.gap first.blank
    simp only [Text.removeBlanks, join, List.filter_append, List.flatMap_cons] at gap spelling rest ⊢
    rw [gap, spelling, rest, List.nil_append]

theorem upperChars_removeBlanks_join (valid : ∀ x ∈ xs, x.Valid)
    (blank : last.all Text.isBlank = true) :
    Text.upperChars (Text.removeBlanks (join xs last)) = join (xs.map capital) [] := by
  rw [removeBlanks_join valid blank]
  clear valid
  induction xs with
  | nil => rfl
  | cons x xs ih =>
    rw [List.flatMap_cons, Text.upperChars_append, ih]
    rfl

end Lexeme

end Token

/-- A text that is read as an expression has a normal form that is read as the same expression, but
    for the spelling of its references. -/
theorem Grading.parse_normalize {text : String} {e : Expr} (parsed : Expr.parse text = .ok e) :
    Expr.parse (normalize text) = .ok (e.mapReferences Reference.capital) := by
  obtain ⟨ts, tokens, derived⟩ := Expr.exists_derives_of_parse parsed
  obtain ⟨xs, last, valid, blank, whole, kinds⟩ := exists_join_of_tokenize tokens
  have known : ∀ x ∈ xs, x.kind.IsKnown := by
    intro x member
    have kind : x.kind ∈ ts.map (·.kind) := kinds ▸ List.mem_map_of_mem member
    obtain ⟨t, inside, same⟩ := List.mem_map.mp kind
    exact same ▸ derived.isKnown t inside
  have valid' : ∀ y ∈ xs.map Lexeme.capital, y.Valid := by
    intro y member
    obtain ⟨x, inside, rfl⟩ := List.mem_map.mp member
    exact Lexeme.capital_valid (valid x inside)
  rw [normalize, whole, Lexeme.upperChars_removeBlanks_join valid blank]
  refine Expr.parse_join valid' rfl fun us same => ?_
  have kindwise : (ts.map (·.kind)).Forall₂ (Kind.Respells Reference.capital)
      (us.map (·.kind)) := by
    rw [kinds, same, List.map_map, List.forall₂_map_left_iff, List.forall₂_map_right_iff,
      List.forall₂_same]
    exact fun x member => Lexeme.capital_respells (valid x member) (known x member)
  rw [List.forall₂_map_left_iff, List.forall₂_map_right_iff] at kindwise
  exact derived.respells kindwise

end Spreadsheet
