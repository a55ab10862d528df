import Spreadsheet.Proofs.Formula.Adjacency
import Spreadsheet.Proofs.Token.Lexeme
import Spreadsheet.Proofs.Token.Word

namespace Spreadsheet.Token

variable {rest last gap spelling : List Char} {c : Char} {kind : Kind} {xs : List Lexeme}

def isOperandChar (c : Char) : Bool := isWordChar c || c == '.'

theorem not_isOperandChar_of_isBlank (blank : Text.isBlank c = true) :
    isOperandChar c = false := by
  have point : c ≠ '.' := ne_of_isBlank blank ⟨by decide, by decide⟩
  rw [isOperandChar, not_isWordChar_of_isBlank blank, Bool.false_or, beq_eq_false_iff_ne]
  exact point

/-- A text does not go on with a word or number, nor with a digit of any script. -/
def Parted (rest : List Char) : Prop :=
  rest.head?.any (fun c => isOperandChar c || Text.isDecimalDigit c) = false

theorem parted_cons_iff :
    Parted (c :: rest) ↔ isOperandChar c = false ∧ Text.isDecimalDigit c = false := by
  rw [Parted, List.head?_cons, Option.any_some, Bool.or_eq_false_iff]

theorem Parted.head? {p : Char → Bool} (h : Parted rest)
    (inside : ∀ c, p c = true → isOperandChar c = true) : rest.head?.any p = false := by
  cases rest with
  | nil => rfl
  | cons c rest =>
    rw [List.head?_cons, Option.any_some, ← Bool.not_eq_true]
    intro holds
    cases (parted_cons_iff.mp h).1.symm.trans (inside c holds)

theorem Parted.eq_nil {ds after : List Char} (h : Parted (ds ++ after))
    (digits : ds.all Text.isDecimalDigit = true) : ds = [] := by
  cases ds with
  | nil => rfl
  | cons d ds =>
    simp only [List.all_cons, Bool.and_eq_true] at digits
    cases (parted_cons_iff.mp h).2.symm.trans digits.1

theorem parted_of_blank (blank : gap.all Text.isBlank = true) (parted : Parted rest) :
    Parted (gap ++ rest) := by
  cases gap with
  | nil => exact parted
  | cons c gap =>
    simp only [List.all_cons, Bool.and_eq_true] at blank
    exact parted_cons_iff.mpr
      ⟨not_isOperandChar_of_isBlank blank.1, Text.isDecimalDigit_of_isBlank blank.1⟩

theorem Spells.not_isOperandChar (h : Spells spelling kind) (mark : kind.isOperand = false) :
    ∀ c ∈ spelling, isOperandChar c = false := by
  cases h with
  | word =>
    rcases Kind.ofWord_cases spelling with ⟨b, same⟩ | same
    · rw [same] at mark
      cases mark
    · rw [same] at mark
      cases mark
  | number => cases mark
  | operator op =>
    have all : op.text.toList.all (fun c => ! isOperandChar c) = true := by cases op <;> decide
    simpa using List.all_eq_true.mp all
  | leftParen | rightParen | comma =>
    intro c member
    rw [List.mem_singleton.mp member]
    decide

theorem Spells.parted (h : Spells spelling kind) (mark : kind.isOperand = false)
    (rest : List Char) : Parted (spelling ++ rest) := by
  obtain ⟨c, cs, head⟩ := List.exists_cons_of_ne_nil h.ne_nil
  have first : c ∈ spelling := by simp [head]
  have other := h.not_isOperandChar mark c first
  rw [head, List.cons_append, parted_cons_iff]
  refine ⟨other, ?_⟩
  rw [← Bool.not_eq_true]
  intro digit
  rcases Text.isDecimalDigit_code digit with ascii | wide
  · simp [isOperandChar, isWordChar, Char.isAlphanum, ascii] at other
  · have code := (h.isMark first).2
    omega

theorem isOperandChar_of_head? (h : Spells spelling kind) (operand : kind.isOperand = true)
    (head : (spelling ++ rest).head? = some c) : isOperandChar c = true := by
  have start : ∀ d, (isWordStart d || (d.isDigit || d == '.')) = true → isOperandChar d = true := by
    intro d start
    simp only [isWordStart, isOperandChar, isWordChar, Char.isAlphanum, Bool.or_eq_true] at start ⊢
    grind
  cases h with
  | word h =>
    cases spelling with
    | nil => cases h.1
    | cons d w =>
      cases head
      exact start c (by rw [Bool.or_eq_true]; exact .inl h.1)
  | @number m exponent h =>
    obtain ⟨d, cs, first, digit⟩ := Mantissa.head?_chars h.whole h.digits (exponent ++ rest)
    rw [List.append_assoc, first] at head
    cases head
    exact start c (by rw [digit, Bool.or_true])
  | operator | leftParen | rightParen | comma => cases operand

theorem Spells.text_of_mark (h : Spells spelling kind) (mark : kind.isOperand = false) :
    kind.text.toList = spelling := by
  cases h with
  | word =>
    rcases Kind.ofWord_cases spelling with ⟨b, same⟩ | same
    · rw [same] at mark
      cases mark
    · rw [same] at mark
      cases mark
  | number => cases mark
  | operator | leftParen | rightParen | comma => rfl

namespace Lexeme

theorem parted_join (valid : ∀ y ∈ xs, y.Valid) (blank : last.all Text.isBlank = true)
    (mark : ∀ y ∈ xs.head?, y.kind.isOperand = false) : Parted (join xs last) := by
  cases xs with
  | nil =>
    have empty : Parted [] := rfl
    have parted := parted_of_blank blank empty
    rwa [List.append_nil] at parted
  | cons y xs =>
    have first := valid y List.mem_cons_self
    exact parted_of_blank first.blank (first.spells.parted (mark y rfl) _)

theorem head?_dropBlanks_join (valid : ∀ y ∈ xs, y.Valid) (blank : last.all Text.isBlank = true)
    (head : (Text.dropBlanks (join xs last)).head? = some c) (other : isOperandChar c = false) :
    ∃ y ∈ xs.head?, y.kind.isOperand = false ∧ y.kind.text.toList.head? = some c := by
  cases xs with
  | nil =>
    have none : Text.dropBlanks (last ++ []) = [] := Text.dropWhile_run blank rfl
    rw [List.append_nil] at none
    rw [join, none] at head
    cases head
  | cons y xs =>
    have first := valid y List.mem_cons_self
    have mark : (join ({ y with gap := [] } :: xs) last).head?.any Text.isBlank = false :=
      head?_join first.spells rfl
    have dropped : Text.dropBlanks (join (y :: xs) last) = y.spelling ++ join xs last :=
      Text.dropWhile_run first.blank mark
    rw [dropped] at head
    have operator : y.kind.isOperand = false := by
      rw [← Bool.not_eq_true]
      intro operand
      cases other.symm.trans (isOperandChar_of_head? first.spells operand head)
    rw [List.head?_append_of_ne_nil _ first.spells.ne_nil] at head
    exact ⟨y, rfl, operator, by rw [first.spells.text_of_mark operator, head]⟩

theorem head?_join_ne {op : Operator} (valid : ∀ y ∈ xs, y.Valid)
    (blank : last.all Text.isBlank = true) (other : op ≠ .percent)
    (next : ∀ y ∈ xs.head?, Kind.Meets (.operator op) y.kind) :
    (join xs last).head? ≠ some '=' ∧ (join xs last).head? ≠ some '>' := by
  have unsigned : ∀ c, c = '=' ∨ c = '>' → (join xs last).head? ≠ some c := by
    intro c sign head
    have mark : Text.isBlank c = false ∧ isOperandChar c = false := by
      rcases sign with rfl | rfl <;> exact ⟨by decide, by decide⟩
    have front : (Text.dropBlanks (join xs last)).head? = some c := by
      obtain ⟨cs, whole⟩ := List.head?_eq_some_iff.mp head
      rw [whole, Text.dropBlanks, List.dropWhile_cons_of_neg (by simp [mark.1])]
      rfl
    obtain ⟨y, first, operator, text⟩ := head?_dropBlanks_join valid blank front mark.2
    have meets := next y first
    cases kind : y.kind with
    | operator op' =>
      rw [kind] at meets text
      rcases meets with same | rfl | rfl
      · exact other same
      · rcases sign with rfl | rfl <;> cases text
      · rcases sign with rfl | rfl <;> cases text
    | leftParen | rightParen | comma =>
      rw [kind] at text
      rcases sign with rfl | rfl <;> cases text
    | _ =>
      rw [kind] at operator
      cases operator
  exact ⟨unsigned '=' (.inl rfl), unsigned '>' (.inr rfl)⟩

theorem apart_of_isChain (valid : ∀ y ∈ xs, y.Valid) (blank : last.all Text.isBlank = true)
    (chain : (xs.map Lexeme.kind).IsChain Kind.Meets) : Apart xs last := by
  induction xs with
  | nil => trivial
  | cons x xs ih =>
    have later : ∀ y ∈ xs, y.Valid := fun y member => valid y (List.mem_cons_of_mem _ member)
    have next : ∀ y ∈ xs.head?, x.kind.Meets y.kind := by
      intro y head
      refine chain.rel_head? ?_
      rw [List.head?_map, head]
      rfl
    refine ⟨?_, ih later chain.tail⟩
    have parted : x.kind.isOperand = true → Parted (join xs last) := fun operand =>
      parted_join later blank fun y head => (next y head).not_isOperand operand
    cases kind : x.kind with
    | number text =>
      refine (parted (by rw [kind]; rfl)).head? fun c inside => ?_
      simp only [isOperandChar, isWordChar, Char.isAlphanum, Bool.or_eq_true, beq_iff_eq]
        at inside ⊢
      rcases inside with ((digit | point) | rfl) | rfl
      · exact .inl (.inl (.inl (.inr digit)))
      · exact .inr point
      · exact .inl (.inl (.inl (.inl (by decide))))
      · exact .inl (.inl (.inl (.inl (by decide))))
    | identifier | boolean =>
      refine (parted (by rw [kind]; rfl)).head? fun c inside => ?_
      rw [isOperandChar, inside, Bool.true_or]
    | operator op =>
      have unsigned : op ≠ .percent → _ := fun other =>
        head?_join_ne later blank other (kind ▸ next)
      cases op with
      | less => exact unsigned (by decide)
      | greater => exact (unsigned (by decide)).1
      | _ => trivial
    | leftParen | rightParen | comma => trivial

end Lexeme

end Spreadsheet.Token

namespace Spreadsheet

open Token

/-- Lexemes whose kinds write an expression are read as the expression, whatever stands between
    them. -/
theorem Expr.parse_join {xs : List Lexeme} {last : List Char} {e : Expr}
    (valid : ∀ x ∈ xs, x.Valid) (blank : last.all Text.isBlank = true)
    (derive : ∀ ts : List Token, ts.map (·.kind) = xs.map Lexeme.kind → Derives .formula ts e) :
    parse (String.ofList (Lexeme.join xs last)) = .ok e := by
  have chain : (xs.map Lexeme.kind).IsChain Kind.Meets := by
    rw [← Lexeme.kinds_tokens 0, List.isChain_map]
    exact (derive _ (Lexeme.kinds_tokens 0 xs)).isChain
  obtain ⟨ts, tokens, kinds⟩ := tokenize_join valid (Lexeme.apart_of_isChain valid blank chain) blank
  exact parse_of_derives tokens (derive ts kinds)

theorem Expr.parse_address {name : String} {a : Address} (valid : Address.parse name = .ok a) :
    parse name = .ok (.ref ⟨a, name⟩) := by
  obtain ⟨position, tokens⟩ := exists_tokenize (spells_of_parse valid)
  have word : Derives .word [⟨.identifier name, position⟩] (.ref ⟨a, name⟩) :=
    .reference rfl valid
  exact parse_of_derives tokens (Derives.whole (.word word)).formula_of_percent

end Spreadsheet
