import Spreadsheet.Proofs.Text.Class
import Spreadsheet.Token.Rendering

namespace Spreadsheet.Token

variable {position : Nat} {cs rest exponent spelling : List Char} {m : Mantissa} {kind : Kind}

/-- A mantissa and an exponent that make a number. -/
structure Mantissa.Writes (m : Mantissa) (exponent : List Char) : Prop where
  whole : m.whole.all Char.isDigit = true
  fraction : ∀ ds ∈ m.fraction, ds.all Char.isDigit = true
  digits : m.hasDigits = true
  power : IsExponent exponent
  point : m.fraction = some [] → exponent ≠ []

/-- The texts that are read as a token of a kind. -/
inductive Spells : List Char → Kind → Prop where
  | word {w : List Char} (h : IsWord w) : Spells w (.ofWord w)
  | number {m : Mantissa} {exponent : List Char} (h : m.Writes exponent) :
      Spells (m.chars ++ exponent) (.number (String.ofList (m.chars ++ exponent)))
  | operator (op : Operator) : Spells op.text.toList (.operator op)
  | leftParen : Spells ['('] .leftParen
  | rightParen : Spells [')'] .rightParen
  | comma : Spells [','] .comma

/-- What follows a token is not read as more of it. -/
def Kind.Ends (kind : Kind) (rest : List Char) : Prop :=
  match kind with
  | .number _ => rest.head?.any (fun c => c.isDigit || c == '.' || c == 'e' || c == 'E') = false
  | .identifier _ | .boolean _ => rest.head?.any isWordChar = false
  | .operator .less => rest.head? ≠ some '=' ∧ rest.head? ≠ some '>'
  | .operator .greater => rest.head? ≠ some '='
  | _ => True

theorem Kind.ofWord_cases (w : List Char) :
    (∃ b, Kind.ofWord w = .boolean b) ∨ Kind.ofWord w = .identifier (String.ofList w) := by
  unfold Kind.ofWord
  dsimp only
  split
  · exact .inl ⟨true, rfl⟩
  · split
    · exact .inl ⟨false, rfl⟩
    · exact .inr rfl

theorem Kind.map_toUpper_of_boolean {w : List Char} {b : Bool} (h : Kind.ofWord w = .boolean b) :
    w.map Char.toUpper = (Kind.boolean b).text.toList := by
  unfold Kind.ofWord at h
  dsimp only at h
  split at h
  · rename_i capitals
    cases h
    exact capitals
  · split at h
    · rename_i capitals
      cases h
      exact capitals
    · cases h

theorem Spells.exists_writes {text : String} (h : Spells spelling (.number text)) :
    ∃ (m : Mantissa) (exponent : List Char), m.Writes exponent ∧ spelling = m.chars ++ exponent := by
  generalize same : Kind.number text = kind at h
  cases h with
  | @number m exponent writes => exact ⟨m, exponent, writes, rfl⟩
  | word =>
    rcases Kind.ofWord_cases spelling with ⟨b, other⟩ | other
    · cases same.trans other
    · cases same.trans other
  | _ => cases same

theorem takeSign_append (cs : List Char) :
    (takeSign cs).1 ++ (takeSign cs).2 = cs ∧
      ((takeSign cs).1 = [] ∨ (takeSign cs).1 = ['+'] ∨ (takeSign cs).1 = ['-']) := by
  unfold takeSign
  split <;> simp

theorem scanExponent_isExponent (h : (scanExponent position cs).outcome = .ok exponent) :
    cs = exponent ++ (scanExponent position cs).rest ∧ IsExponent exponent := by
  unfold scanExponent at h ⊢
  split at h
  · cases h
    exact ⟨rfl, .inl rfl⟩
  · rename_i mark after
    dsimp only at h ⊢
    split at h
    · rename_i letter
      obtain ⟨whole, sign⟩ := takeSign_append after
      split at h
      · cases h
      · rename_i digits
        rw [if_pos letter, if_neg digits]
        cases h
        refine ⟨?_, .inr ⟨mark, _, _, rfl, letter, sign, by simpa using digits, List.all_takeWhile⟩⟩
        simp only [List.cons_append, List.append_assoc, List.takeWhile_append_dropWhile, whole]
    · rename_i other
      rw [if_neg other]
      cases h
      exact ⟨rfl, .inl rfl⟩

theorem Mantissa.scan_append (cs : List Char) :
    (Mantissa.scan cs).1.chars ++ (Mantissa.scan cs).2 = cs ∧
      (Mantissa.scan cs).1.whole.all Char.isDigit = true ∧
      ∀ ds ∈ (Mantissa.scan cs).1.fraction, ds.all Char.isDigit = true := by
  have parts := List.takeWhile_append_dropWhile (p := Char.isDigit) (l := cs)
  unfold Mantissa.scan
  dsimp only
  split
  · rename_i after point
    rw [point] at parts
    refine ⟨?_, List.all_takeWhile, ?_⟩
    · simp only [Mantissa.chars, List.append_assoc, List.cons_append,
        List.takeWhile_append_dropWhile, parts]
    · rintro ds ⟨⟩
      exact List.all_takeWhile
  · exact ⟨parts, List.all_takeWhile, nofun⟩

theorem Mantissa.scanExponent_isExponent
    (h : (m.scanExponent position cs).outcome = .ok exponent) :
    cs = exponent ++ (m.scanExponent position cs).rest ∧ IsExponent exponent := by
  unfold Mantissa.scanExponent at h ⊢
  split at h
  · rename_i digits
    rw [if_pos digits]
    exact Token.scanExponent_isExponent h
  · rename_i digits
    rw [if_neg digits]
    cases h
    exact ⟨rfl, .inl rfl⟩

theorem Mantissa.number_eq_ok {after : List Char}
    (h : m.number position exponent after = .ok kind) :
    m.hasDigits = true ∧ (m.fraction = some [] → exponent ≠ []) ∧
      kind = .number (String.ofList (m.chars ++ exponent)) := by
  unfold Mantissa.number at h
  split at h
  · cases h
  · split at h
    · cases h
    · rename_i digits
      split at h
      · cases h
      · rename_i point
        cases h
        exact ⟨by simpa using digits, fun none empty => point ⟨none, empty⟩, rfl⟩

theorem scanNumber_eq_ok (h : (scanNumber position cs).outcome = .ok kind) :
    ∃ exponent,
      ((Mantissa.scan cs).1.scanExponent position (Mantissa.scan cs).2).outcome = .ok exponent ∧
      (Mantissa.scan cs).1.number position exponent (scanNumber position cs).rest = .ok kind := by
  unfold scanNumber at h ⊢
  dsimp only at h ⊢
  cases scanned : ((Mantissa.scan cs).1.scanExponent position (Mantissa.scan cs).2).outcome with
  | error f =>
    rw [scanned] at h
    cases h
  | ok exponent =>
    rw [scanned] at h
    exact ⟨exponent, rfl, h⟩

theorem scanNumber_spells (h : (scanNumber position cs).outcome = .ok kind) :
    ∃ s, cs = s ++ (scanNumber position cs).rest ∧ Spells s kind := by
  obtain ⟨parts, whole, fraction⟩ := Mantissa.scan_append cs
  obtain ⟨exponent, scanned, number⟩ := scanNumber_eq_ok h
  obtain ⟨split, power⟩ := Mantissa.scanExponent_isExponent scanned
  obtain ⟨digits, point, rfl⟩ := Mantissa.number_eq_ok number
  refine ⟨(Mantissa.scan cs).1.chars ++ exponent, ?_,
    .number ⟨whole, fraction, digits, power, point⟩⟩
  rw [List.append_assoc]
  exact parts.symm.trans (congrArg _ split)

theorem scanNumber_category (h : (scanNumber position cs).outcome = .ok kind) :
    kind.category = .number := by
  obtain ⟨exponent, -, number⟩ := scanNumber_eq_ok h
  obtain ⟨-, -, rfl⟩ := Mantissa.number_eq_ok number
  rfl

theorem scanWord_spells {c : Char} (start : isWordStart c = true) :
    ∃ s, c :: cs = s ++ (scanWord (c :: cs)).rest ∧
      Spells s (.ofWord ((c :: cs).takeWhile isWordChar)) := by
  refine ⟨(c :: cs).takeWhile isWordChar, List.takeWhile_append_dropWhile.symm, .word ⟨?_, ?_⟩⟩
  · have inside : isWordChar c = true := by
      simp only [isWordStart, isWordChar, Char.isAlphanum] at start ⊢
      grind
    rw [List.takeWhile_cons_of_pos inside]
    exact start
  · exact List.all_takeWhile

theorem scanSymbol_spells (h : (scanSymbol position cs).outcome = .ok kind) :
    ∃ s, cs = s ++ (scanSymbol position cs).rest ∧ Spells s kind := by
  revert h
  fun_cases scanSymbol position cs
  case case16 => intro h; cases h
  case case17 => intro h; cases h
  case case13 => rintro ⟨⟩; exact ⟨_, rfl, .leftParen⟩
  case case14 => rintro ⟨⟩; exact ⟨_, rfl, .rightParen⟩
  case case15 => rintro ⟨⟩; exact ⟨_, rfl, .comma⟩
  all_goals rintro ⟨⟩; exact ⟨_, rfl, .operator _⟩

theorem scan_spells (h : (scan position cs).outcome = .ok kind) :
    ∃ s, cs = s ++ (scan position cs).rest ∧ Spells s kind := by
  cases cs with
  | nil => cases h
  | cons c cs =>
    unfold scan at h ⊢
    dsimp only at h ⊢
    split at h
    · rename_i number
      rw [if_pos number]
      exact scanNumber_spells h
    · rename_i number
      rw [if_neg number]
      split at h
      · rename_i word
        rw [if_pos word]
        cases h
        exact scanWord_spells word
      · rename_i word
        rw [if_neg word]
        exact scanSymbol_spells h

theorem head?_dropWhile (p : Char → Bool) (cs : List Char) :
    (cs.dropWhile p).head?.any p = false := by
  rw [← Bool.not_eq_true]
  intro holds
  have stop := List.head?_dropWhile_not p cs
  cases head : (cs.dropWhile p).head? with
  | none => simp [head] at holds
  | some c => simp_all

theorem scanWord_ends (cs : List Char) :
    (Kind.ofWord (cs.takeWhile isWordChar)).Ends (scanWord cs).rest := by
  have stop := head?_dropWhile isWordChar cs
  rcases Kind.ofWord_cases (cs.takeWhile isWordChar) with ⟨b, same⟩ | same
  · rw [same]
    exact stop
  · rw [same]
    exact stop

theorem head?_ne {c : Char} (other : ∀ tail, cs = c :: tail → False) : cs.head? ≠ some c := by
  intro head
  obtain ⟨tail, same⟩ := List.head?_eq_some_iff.mp head
  exact other tail same

theorem scanSymbol_ends (h : (scanSymbol position cs).outcome = .ok kind) :
    kind.Ends (scanSymbol position cs).rest := by
  revert h
  fun_cases scanSymbol position cs
  case case3 equal greater => rintro ⟨⟩; exact ⟨head?_ne equal, head?_ne greater⟩
  case case5 equal => rintro ⟨⟩; exact head?_ne equal
  all_goals rintro ⟨⟩
  all_goals trivial

/-- The scanner reads on as long as it can. A number alone may stop short of a further letter E. -/
theorem scan_ends (h : (scan position cs).outcome = .ok kind) (other : kind.category ≠ .number) :
    kind.Ends (scan position cs).rest := by
  cases cs with
  | nil => cases h
  | cons c cs =>
    unfold scan at h ⊢
    dsimp only at h ⊢
    split at h
    · exact absurd (scanNumber_category h) other
    · rename_i number
      rw [if_neg number]
      split at h
      · rename_i word
        rw [if_pos word]
        cases h
        exact scanWord_ends (c :: cs)
      · rename_i word
        rw [if_neg word]
        exact scanSymbol_ends h

theorem Mantissa.head?_chars {digit : Char → Bool} (whole : m.whole.all digit = true)
    (digits : m.hasDigits = true) (rest : List Char) :
    ∃ c cs, m.chars ++ rest = c :: cs ∧ (digit c || c == '.') = true := by
  obtain ⟨whole', fraction⟩ := m
  cases whole' with
  | cons c cs =>
    simp only [List.all_cons, Bool.and_eq_true] at whole
    cases fraction with
    | none => exact ⟨c, _, rfl, by simp [whole.1]⟩
    | some ds => exact ⟨c, _, rfl, by simp [whole.1]⟩
  | nil =>
    cases fraction with
    | none => cases digits
    | some ds => exact ⟨'.', _, rfl, Bool.or_true _⟩

theorem Mantissa.scan_chars {m : Mantissa} {rest : List Char}
    (whole : m.whole.all Char.isDigit = true)
    (fraction : ∀ ds ∈ m.fraction, ds.all Char.isDigit = true)
    (stop : rest.head?.any Char.isDigit = false) (point : rest.head? ≠ some '.') :
    Mantissa.scan (m.chars ++ rest) = (m, rest) := by
  obtain ⟨whole', fraction'⟩ := m
  unfold Mantissa.scan
  cases fraction' with
  | none =>
    simp only [chars, Text.takeWhile_run whole stop, Text.dropWhile_run whole stop]
    split
    · exact absurd rfl point
    · rfl
  | some ds =>
    have dot : (('.' :: ds) ++ rest).head?.any Char.isDigit = false := rfl
    have tail := fraction ds rfl
    simp only [chars, List.append_assoc, Text.takeWhile_run whole dot,
      Text.dropWhile_run whole dot]
    simp only [List.cons_append, Text.takeWhile_run tail stop, Text.dropWhile_run tail stop]

theorem takeSign_sign {sign ds : List Char} (h : sign = [] ∨ sign = ['+'] ∨ sign = ['-'])
    (digit : ds.head?.any Char.isDigit = true) : takeSign (sign ++ ds) = (sign, ds) := by
  rcases h with rfl | rfl | rfl
  · rw [List.nil_append]
    unfold takeSign
    split
    · cases digit
    · cases digit
    · rfl
  · rfl
  · rfl

theorem head?_any_of_all {p : Char → Bool} {ds : List Char} (some : ds ≠ [])
    (all : ds.all p = true) (rest : List Char) : (ds ++ rest).head?.any p = true := by
  cases ds with
  | nil => exact absurd rfl some
  | cons c ds =>
    simp only [List.all_cons, Bool.and_eq_true] at all
    exact all.1

theorem scanExponent_of_isExponent (h : IsExponent exponent)
    (ends : (Kind.number "").Ends rest) (position : Nat) :
    scanExponent position (exponent ++ rest) = ⟨.ok exponent, rest⟩ := by
  rcases h with rfl | ⟨mark, sign, ds, rfl, letter, signs, some, digits⟩
  · cases rest with
    | nil => rfl
    | cons c rest =>
      have other : ¬ (c = 'e' ∨ c = 'E') := by
        simp only [Kind.Ends, List.head?_cons, Option.any_some, Bool.or_eq_false_iff,
          beq_eq_false_iff_ne] at ends
        exact fun letter => letter.elim ends.1.2 ends.2
      simp only [List.nil_append, scanExponent, if_neg other]
  · have stop : rest.head?.any Char.isDigit = false := by
      cases rest with
      | nil => rfl
      | cons c rest =>
        simp only [Kind.Ends, List.head?_cons, Option.any_some, Bool.or_eq_false_iff] at ends
        exact ends.1.1.1
    have unsigned := takeSign_sign signs (head?_any_of_all some digits rest)
    simp only [List.cons_append, List.append_assoc, scanExponent, if_pos letter, unsigned,
      Text.takeWhile_run digits stop, Text.dropWhile_run digits stop]
    rw [if_neg (by simpa using some)]

theorem IsExponent.head? (h : IsExponent exponent) (ends : (Kind.number "").Ends rest) :
    (exponent ++ rest).head?.any Char.isDigit = false ∧ (exponent ++ rest).head? ≠ some '.' := by
  rcases h with rfl | ⟨mark, sign, ds, rfl, letter, -⟩
  · cases rest with
    | nil => exact ⟨rfl, nofun⟩
    | cons c rest =>
      simp only [Kind.Ends, List.head?_cons, Option.any_some, Bool.or_eq_false_iff,
        beq_eq_false_iff_ne] at ends
      exact ⟨ends.1.1.1, fun point => ends.1.1.2 (Option.some.inj point)⟩
  · rcases letter with rfl | rfl
    · exact ⟨rfl, nofun⟩
    · exact ⟨rfl, nofun⟩

theorem scanNumber_of_writes (h : m.Writes exponent) (ends : (Kind.number "").Ends rest)
    (position : Nat) :
    scanNumber position (m.chars ++ exponent ++ rest) =
      ⟨.ok (.number (String.ofList (m.chars ++ exponent))), rest⟩ := by
  obtain ⟨stop, point⟩ := h.power.head? ends
  have second : ¬ (m.fraction.isSome = true ∧ rest.head? = some '.') := by
    rintro ⟨-, dot⟩
    simp [Kind.Ends, dot] at ends
  have trailing : ¬ (m.fraction = some [] ∧ exponent = []) := fun both => h.point both.1 both.2
  unfold scanNumber
  simp only [List.append_assoc, Mantissa.scan_chars h.whole h.fraction stop point,
    Mantissa.scanExponent, if_pos h.digits, scanExponent_of_isExponent h.power ends]
  simp only [Except.bind, Mantissa.number, if_neg second, h.digits, if_neg trailing]
  rfl

theorem scanSymbol_of_operator {op : Operator} (ends : (Kind.operator op).Ends rest)
    (position : Nat) :
    scanSymbol position (op.text.toList ++ rest) = ⟨.ok (.operator op), rest⟩ := by
  cases op
  case less =>
    change scanSymbol position ('<' :: rest) = _
    unfold scanSymbol
    split <;> grind [Kind.Ends]
  case greater =>
    change scanSymbol position ('>' :: rest) = _
    unfold scanSymbol
    split <;> grind [Kind.Ends]
  all_goals rfl

theorem not_number_of_isWordStart {c : Char} (h : isWordStart c = true) :
    (c.isDigit || c == '.') = false := by
  simp only [isWordStart, Bool.or_eq_true, beq_iff_eq] at h
  rcases h with (letter | rfl) | rfl
  · have code := Text.isAlpha_iff.mp letter
    rw [Bool.or_eq_false_iff, ← Bool.not_eq_true, Text.isDigit_iff, beq_eq_false_iff_ne]
    refine ⟨by omega, ?_⟩
    rintro rfl
    revert code
    decide
  · rfl
  · rfl

theorem scan_of_isWord {w : List Char} (h : IsWord w) (ends : rest.head?.any isWordChar = false)
    (position : Nat) : scan position (w ++ rest) = ⟨.ok (.ofWord w), rest⟩ := by
  cases w with
  | nil => cases h.1
  | cons c w =>
    have start : isWordStart c = true := h.1
    rw [List.cons_append, scan]
    simp only [not_number_of_isWordStart start, start]
    rw [← List.cons_append]
    simp only [scanWord, Text.takeWhile_run h.2 ends, Text.dropWhile_run h.2 ends]
    rfl

theorem scan_of_symbol {c : Char} (number : (c.isDigit || c == '.') = false)
    (word : isWordStart c = false) (position : Nat) (cs : List Char) :
    scan position (c :: cs) = scanSymbol position (c :: cs) := by
  simp only [scan, number, word]
  rfl

theorem scan_of_spells (h : Spells spelling kind) (ends : kind.Ends rest) (position : Nat) :
    scan position (spelling ++ rest) = ⟨.ok kind, rest⟩ := by
  cases h with
  | word h =>
    refine scan_of_isWord h ?_ position
    rcases Kind.ofWord_cases spelling with ⟨b, same⟩ | same
    · rw [same] at ends
      exact ends
    · rw [same] at ends
      exact ends
  | @number m exponent h =>
    obtain ⟨c, cs, head, number⟩ := Mantissa.head?_chars h.whole h.digits (exponent ++ rest)
    rw [← scanNumber_of_writes h ends position, List.append_assoc, head, scan]
    simp only [number]
    rfl
  | operator op =>
    rw [← scanSymbol_of_operator ends position]
    cases op <;> exact scan_of_symbol (by decide) (by decide) position _
  | leftParen | rightParen | comma => exact scan_of_symbol (by decide) (by decide) position _

theorem Spells.ne_nil (h : Spells spelling kind) : spelling ≠ [] := by
  cases h with
  | word h =>
    rintro rfl
    cases h.1
  | number h =>
    obtain ⟨c, cs, head, -⟩ := Mantissa.head?_chars h.whole h.digits _
    rw [head]
    nofun
  | operator op => cases op <;> nofun
  | leftParen | rightParen | comma => nofun

/-- The characters of tokens are those of ASCII that leave a mark. -/
def IsMark (c : Char) : Prop := 0x21 ≤ c.toNat ∧ c.toNat ≤ 0x7E

theorem IsMark.not_isBlank {c : Char} (h : IsMark c) : Text.isBlank c = false := by
  rw [← Bool.not_eq_true]
  intro blank
  have code := Text.isBlank_code blank
  have mark := h.1
  have last := h.2
  omega

theorem IsMark.lt {c : Char} (h : IsMark c) : c.toNat < 0xB5 := by
  have last := h.2
  omega

theorem isMark_of_isDigit {c : Char} (h : c.isDigit = true) : IsMark c := by
  have code := Text.isDigit_iff.mp h
  exact ⟨by omega, by omega⟩

theorem isMark_of_isWordChar {c : Char} (h : isWordChar c = true) : IsMark c := by
  simp only [isWordChar, Char.isAlphanum, Bool.or_eq_true, beq_iff_eq] at h
  rcases h with ((letter | digit) | rfl) | rfl
  · have code := Text.isAlpha_iff.mp letter
    exact ⟨by omega, by omega⟩
  · exact isMark_of_isDigit digit
  · exact ⟨by decide, by decide⟩
  · exact ⟨by decide, by decide⟩

theorem ne_of_isBlank {c d : Char} (blank : Text.isBlank c = true) (mark : IsMark d) : c ≠ d := by
  intro same
  rw [← same] at mark
  cases mark.not_isBlank.symm.trans blank

theorem not_isWordChar_of_isBlank {c : Char} (blank : Text.isBlank c = true) :
    isWordChar c = false := by
  rw [← Bool.not_eq_true]
  intro inside
  exact ne_of_isBlank blank (isMark_of_isWordChar inside) rfl

theorem Mantissa.digit_of_mem_chars {digit : Char → Bool} (whole : m.whole.all digit = true)
    (fraction : ∀ ds ∈ m.fraction, ds.all digit = true) {c : Char} (h : c ∈ m.chars) :
    digit c = true ∨ c = '.' := by
  obtain ⟨whole', fraction'⟩ := m
  have before : c ∈ whole' → digit c = true :=
    fun member => List.all_eq_true.mp whole c member
  cases fraction' with
  | none => exact .inl (before h)
  | some ds =>
    rcases List.mem_append.mp h with member | member
    · exact .inl (before member)
    · rcases List.mem_cons.mp member with point | member
      · exact .inr point
      · exact .inl (List.all_eq_true.mp (fraction ds rfl) c member)

theorem IsExponent.isMark (h : IsExponent exponent) {c : Char} (member : c ∈ exponent) :
    IsMark c := by
  rcases h with rfl | ⟨mark, sign, ds, rfl, letter, signs, -, digits⟩
  · cases member
  · rcases List.mem_cons.mp member with rfl | member
    · rcases letter with rfl | rfl <;> exact ⟨by decide, by decide⟩
    · rcases List.mem_append.mp member with member | member
      · rcases signs with rfl | rfl | rfl
        · cases member
        all_goals rw [List.mem_singleton.mp member]; exact ⟨by decide, by decide⟩
      · exact isMark_of_isDigit (List.all_eq_true.mp digits c member)

theorem Spells.isMark (h : Spells spelling kind) {c : Char} (member : c ∈ spelling) :
    IsMark c := by
  cases h with
  | word h => exact isMark_of_isWordChar (List.all_eq_true.mp h.2 c member)
  | number h =>
    rcases List.mem_append.mp member with member | member
    · rcases Mantissa.digit_of_mem_chars h.whole h.fraction member with digit | rfl
      · exact isMark_of_isDigit digit
      · exact ⟨by decide, by decide⟩
    · exact h.power.isMark member
  | operator op =>
    have all : op.text.toList.all (fun c => 0x21 ≤ c.toNat && c.toNat ≤ 0x7E) = true := by
      cases op <;> decide
    simpa [IsMark] using List.all_eq_true.mp all c member
  | leftParen | rightParen | comma =>
    rw [List.mem_singleton.mp member]
    exact ⟨by decide, by decide⟩

end Spreadsheet.Token
