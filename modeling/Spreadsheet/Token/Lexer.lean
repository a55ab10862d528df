import Spreadsheet.Failure
import Spreadsheet.Text.Blank
import Spreadsheet.Token.Basic

namespace Spreadsheet.Token

/-- A scanner's outcome at the head of a text, and the text after what it read. -/
structure Scan (α : Type) where
  outcome : Except Failure α
  rest : List Char

def isWordStart (c : Char) : Bool := c.isAlpha || c == '_' || c == '$'

def isWordChar (c : Char) : Bool := c.isAlphanum || c == '_' || c == '$'

/-- The truth values are words in any case; every other word is an identifier. -/
def Kind.ofWord (word : List Char) : Kind :=
  let capitals := word.map Char.toUpper
  if capitals = ['T', 'R', 'U', 'E'] then .boolean true
  else if capitals = ['F', 'A', 'L', 'S', 'E'] then .boolean false
  else .identifier (String.ofList word)

def scanWord (cs : List Char) : Scan Kind :=
  ⟨.ok (.ofWord (cs.takeWhile isWordChar)), cs.dropWhile isWordChar⟩

/-- The digits of a number before its exponent, as written. -/
structure Mantissa where
  whole : List Char
  fraction : Option (List Char)
deriving DecidableEq

namespace Mantissa

def hasDigits (m : Mantissa) : Bool := ! m.whole.isEmpty || m.fraction.any (! ·.isEmpty)

def chars (m : Mantissa) : List Char :=
  match m.fraction with
  | none => m.whole
  | some fraction => m.whole ++ '.' :: fraction

/-- The digits at the head of a text, with a point and its digits if one follows. -/
def scan (cs : List Char) : Mantissa × List Char :=
  let whole := cs.takeWhile Char.isDigit
  match cs.dropWhile Char.isDigit with
  | '.' :: rest => (⟨whole, some (rest.takeWhile Char.isDigit)⟩, rest.dropWhile Char.isDigit)
  | rest => (⟨whole, none⟩, rest)

end Mantissa

def takeSign : List Char → List Char × List Char
  | '+' :: rest => (['+'], rest)
  | '-' :: rest => (['-'], rest)
  | cs => ([], cs)

/-- An exponent at the head of a text, if there is one: a letter E, a sign or none, and digits. A
    letter E without digits is a fault of the number that starts at `position`. -/
def scanExponent (position : Nat) (cs : List Char) : Scan (List Char) :=
  match cs with
  | [] => ⟨.ok [], []⟩
  | mark :: rest =>
    if mark = 'e' ∨ mark = 'E' then
      let (sign, unsigned) := takeSign rest
      let digits := unsigned.takeWhile Char.isDigit
      if digits.isEmpty then ⟨.error (.missingExponent position), unsigned⟩
      else ⟨.ok (mark :: sign ++ digits), unsigned.dropWhile Char.isDigit⟩
    else ⟨.ok [], cs⟩

/-- An exponent after a mantissa; one without digits has none. -/
def Mantissa.scanExponent (m : Mantissa) (position : Nat) (cs : List Char) : Scan (List Char) :=
  if m.hasDigits then Token.scanExponent position cs else ⟨.ok [], cs⟩

/-- A number from its mantissa, its exponent as written, and the text after it. It may end with a
    point only before an exponent, and a second point is a fault. -/
def Mantissa.number (m : Mantissa) (position : Nat) (exponent after : List Char) :
    Except Failure Kind :=
  if m.fraction.isSome ∧ after.head? = some '.' then .error (.secondPoint position)
  else if ! m.hasDigits then .error (.lonePoint position)
  else if m.fraction = some [] ∧ exponent = [] then .error (.trailingPoint position)
  else .ok (.number (String.ofList (m.chars ++ exponent)))

def scanNumber (position : Nat) (cs : List Char) : Scan Kind :=
  let (mantissa, after) := Mantissa.scan cs
  let exponent := mantissa.scanExponent position after
  ⟨exponent.outcome.bind (mantissa.number position · exponent.rest), exponent.rest⟩

/-- The longest operator or mark at the head of a text. -/
def scanSymbol (position : Nat) : List Char → Scan Kind
  | '<' :: '=' :: rest => ⟨.ok (.operator .lessEqual), rest⟩
  | '<' :: '>' :: rest => ⟨.ok (.operator .notEqual), rest⟩
  | '<' :: rest => ⟨.ok (.operator .less), rest⟩
  | '>' :: '=' :: rest => ⟨.ok (.operator .greaterEqual), rest⟩
  | '>' :: rest => ⟨.ok (.operator .greater), rest⟩
  | '+' :: rest => ⟨.ok (.operator .plus), rest⟩
  | '-' :: rest => ⟨.ok (.operator .minus), rest⟩
  | '*' :: rest => ⟨.ok (.operator .times), rest⟩
  | '/' :: rest => ⟨.ok (.operator .divide), rest⟩
  | '=' :: rest => ⟨.ok (.operator .equal), rest⟩
  | '%' :: rest => ⟨.ok (.operator .percent), rest⟩
  | '^' :: rest => ⟨.ok (.operator .power), rest⟩
  | '(' :: rest => ⟨.ok .leftParen, rest⟩
  | ')' :: rest => ⟨.ok .rightParen, rest⟩
  | ',' :: rest => ⟨.ok .comma, rest⟩
  | c :: rest => ⟨.error (.unexpectedCharacter c position), c :: rest⟩
  | [] => ⟨.error .unexpectedEnd, []⟩

/-- The token at the head of a text that starts with no blank. -/
def scan (position : Nat) (cs : List Char) : Scan Kind :=
  match cs with
  | [] => scanSymbol position []
  | c :: _ =>
    if c.isDigit || c == '.' then scanNumber position cs
    else if isWordStart c then scanWord cs
    else scanSymbol position cs

theorem length_dropWhile_le (p : Char → Bool) (cs : List Char) :
    (cs.dropWhile p).length ≤ cs.length := (List.dropWhile_sublist p).length_le

theorem length_dropWhile_lt {p : Char → Bool} {c : Char} (holds : p c = true) (cs : List Char) :
    ((c :: cs).dropWhile p).length < (c :: cs).length := by
  rw [List.dropWhile_cons_of_pos holds]
  exact Nat.lt_succ_of_le (length_dropWhile_le p cs)

theorem takeSign_length (cs : List Char) : (takeSign cs).2.length ≤ cs.length := by
  unfold takeSign
  split <;> simp

theorem scanExponent_length (position : Nat) (cs : List Char) :
    (scanExponent position cs).rest.length ≤ cs.length := by
  cases cs with
  | nil => simp [scanExponent]
  | cons mark rest =>
    have unsigned := takeSign_length rest
    have digits := length_dropWhile_le Char.isDigit (takeSign rest).2
    simp only [scanExponent, List.length_cons]
    split
    · split <;> dsimp only <;> omega
    · simp

theorem Mantissa.scan_length {c : Char} (start : c.isDigit = true ∨ c = '.') (cs : List Char) :
    (Mantissa.scan (c :: cs)).2.length < (c :: cs).length := by
  have before := length_dropWhile_le Char.isDigit (c :: cs)
  rw [Mantissa.scan]
  split
  · rename_i rest h
    have after := length_dropWhile_le Char.isDigit rest
    simp only [h, List.length_cons] at before
    simp only [List.length_cons]
    omega
  · rename_i noPoint
    rcases start with digit | rfl
    · exact length_dropWhile_lt digit cs
    · exact absurd rfl (noPoint cs)

theorem scanNumber_length {c : Char} (start : c.isDigit = true ∨ c = '.') (position : Nat)
    (cs : List Char) : (scanNumber position (c :: cs)).rest.length < (c :: cs).length := by
  have mantissa := Mantissa.scan_length start cs
  have exponent := scanExponent_length position (Mantissa.scan (c :: cs)).2
  simp only [scanNumber, Mantissa.scanExponent]
  split
  · exact Nat.lt_of_le_of_lt exponent mantissa
  · exact mantissa

theorem scanSymbol_length {position : Nat} {cs : List Char} {kind : Kind}
    (h : (scanSymbol position cs).outcome = .ok kind) :
    (scanSymbol position cs).rest.length < cs.length := by
  revert h
  fun_cases scanSymbol position cs <;> grind

theorem scan_length {position : Nat} {cs : List Char} {kind : Kind}
    (h : (scan position cs).outcome = .ok kind) : (scan position cs).rest.length < cs.length := by
  cases cs with
  | nil => exact absurd h (by simp [scan, scanSymbol])
  | cons c cs =>
    by_cases number : c.isDigit || c == '.'
    · simp only [scan, number]
      exact scanNumber_length (by simpa using number) position cs
    · by_cases word : isWordStart c
      · simp only [scan, number, word]
        have wordChar : isWordChar c = true := by
          simp only [isWordStart, isWordChar, Char.isAlphanum] at word ⊢
          grind
        exact length_dropWhile_lt wordChar cs
      · simp only [scan, number, word] at h ⊢
        exact scanSymbol_length h

/-- The tokens of a text, and the text that is left: nothing, or what follows a fault. The text
    starts at `position`. -/
def lex (position : Nat) (cs : List Char) : Scan (List Token) :=
  match cs with
  | [] => ⟨.ok [], []⟩
  | c :: tail =>
    if Text.isBlank c then lex (position + 1) tail
    else
      match _scanned : (scan position (c :: tail)).outcome with
      | .error e => ⟨.error e, (scan position (c :: tail)).rest⟩
      | .ok kind =>
        let others := lex (position + kind.text.length) (scan position (c :: tail)).rest
        ⟨others.outcome.map (⟨kind, position⟩ :: ·), others.rest⟩
termination_by cs.length
decreasing_by
  · simp
  · exact scan_length _scanned

end Spreadsheet.Token
