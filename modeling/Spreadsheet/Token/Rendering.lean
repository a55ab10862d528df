import Spreadsheet.Text.Blank
import Spreadsheet.Token.Lexer

namespace Spreadsheet.Token

/-- The exponents of numbers, and the empty text. -/
def IsExponent (cs : List Char) : Prop :=
  cs = [] ∨ ∃ mark sign ds, cs = mark :: (sign ++ ds) ∧ (mark = 'e' ∨ mark = 'E') ∧
    (sign = [] ∨ sign = ['+'] ∨ sign = ['-']) ∧ ds ≠ [] ∧ ds.all Char.isDigit = true

/-- The shapes of numbers: digits with or without a fraction, or a point and digits, and an
    exponent or none. -/
def IsNumber (cs : List Char) : Prop :=
  ∃ whole fraction exponent,
    cs = whole ++ fraction ++ exponent ∧
    whole.all Char.isDigit = true ∧
    (fraction = [] ∧ whole ≠ [] ∨
      ∃ ds, fraction = '.' :: ds ∧ ds ≠ [] ∧ ds.all Char.isDigit = true) ∧
    IsExponent exponent

/-- Words are letters, digits, underscores and dollars and do not start with a digit. -/
def IsWord (cs : List Char) : Prop :=
  cs.head?.any isWordStart = true ∧ cs.all isWordChar = true

/-- The kinds of tokens whose text is read as that kind. A truth value in small letters is no
    identifier. -/
def Kind.IsLexeme : Kind → Prop
  | .number text => IsNumber text.toList
  | .identifier name =>
    IsWord name.toList ∧ ∀ value, name.toList.map Char.toUpper ≠ (Kind.boolean value).text.toList
  | _ => True

/-- The text of some tokens, each one after a gap, and an end. -/
def render : List (List Char × Kind) → List Char → List Char
  | [], last => last
  | (gap, kind) :: rest, last => gap ++ kind.text.toList ++ render rest last

/-- The tokens of a rendering that starts at a position. -/
def placed (position : Nat) : List (List Char × Kind) → List Token
  | [] => []
  | (gap, kind) :: rest =>
    ⟨kind, position + gap.length⟩ ::
      placed (position + gap.length + kind.text.toList.length) rest

@[simp] theorem placed_kinds (position : Nat) (parts : List (List Char × Kind)) :
    (placed position parts).map (·.kind) = parts.map Prod.snd := by
  induction parts generalizing position with
  | nil => rfl
  | cons part parts ih => simp [placed, ih]

/-- The part of a text that a token stands for. -/
def slice (cs : List Char) (t : Token) : List Char :=
  (cs.drop t.position).take t.text.toList.length

end Spreadsheet.Token
