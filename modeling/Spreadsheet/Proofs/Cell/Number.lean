import Spreadsheet.Proofs.Cell.Literal
import Spreadsheet.Proofs.Formula.Completeness
import Spreadsheet.Proofs.Formula.Outcome

namespace Spreadsheet

variable {cs exponent : List Char} {text number : String} {isPercent : Bool} {signs : List Token}
  {n : Numeral} {x : Float} {t : Token}

namespace Token

theorem IsExponent.exists_power (h : IsExponent exponent) :
    ∃ power, Numeral.PowerText Char.isDigit exponent power := by
  rcases h with rfl | ⟨mark, sign, ds, rfl, letter, signs, some, digits⟩
  · exact ⟨0, .absent⟩
  · rcases signs with rfl | rfl | rfl
    · exact ⟨_, .written letter .absent some digits⟩
    · exact ⟨_, .written letter .plus some digits⟩
    · exact ⟨_, .written letter .minus some digits⟩

theorem Spells.denotes (h : Spells cs (.number number)) :
    ∃ n, Numeral.Denotes Char.isDigit cs n ∧ Numeral.floatOfText number = n.toFloat := by
  obtain ⟨m, exponent, writes, whole⟩ := h.exists_writes
  obtain ⟨power, raised⟩ := writes.power.exists_power
  have denotes := Numeral.Denotes.intro .absent writes.whole writes.fraction writes.digits raised
  rw [List.nil_append, ← whole] at denotes
  have read := Numeral.read?_eq_some_iff.mpr (denotes.mono fun _ => Text.isDecimalDigit_of_isDigit)
  refine ⟨_, denotes, ?_⟩
  simp only [Numeral.floatOfText, ← h.eq_number, read]

end Token

/-- Neither dollars nor commas, which literals leave out. -/
def Literal.Plain (cs : List Char) : Prop := ∀ c ∈ cs, c ≠ '$' ∧ c ≠ ','

namespace Literal

open Token (Lexeme)

variable {gap : List Char} {ys : List Lexeme} {last : List Char}

theorem Plain.append (h : Plain cs) (h' : Plain gap) : Plain (cs ++ gap) := by
  intro c member
  rcases List.mem_append.mp member with member | member
  · exact h c member
  · exact h' c member

theorem Plain.filter_eq_self (h : Plain cs) :
    (cs.filter fun c => ! (c == '$' || c == ',')) = cs := by
  refine List.filter_eq_self.mpr fun c member => ?_
  simp [h c member]

theorem plain_of_blank (blank : cs.all Text.isBlank = true) : Plain cs := by
  intro c member
  have blank := List.all_eq_true.mp blank c member
  exact ⟨Token.ne_of_isBlank blank ⟨by decide, by decide⟩,
    Token.ne_of_isBlank blank ⟨by decide, by decide⟩⟩

theorem plain_of_denotes (h : Numeral.Denotes Char.isDigit cs n) : Plain cs := by
  intro c member
  rcases h.mem member with digit | mark
  · refine ⟨?_, ?_⟩ <;>
      · rintro rfl
        cases digit
  · refine ⟨?_, ?_⟩ <;>
      · rintro rfl
        exact absurd mark (by decide)

theorem exists_join_percent (valid : ∀ y ∈ ys, y.Valid) (blank : last.all Text.isBlank = true)
    (kinds : ys.map Lexeme.kind = if isPercent then [.operator .percent] else []) :
    ∃ gap trail, gap.all Text.isBlank = true ∧ trail.all Text.isBlank = true ∧
      Lexeme.join ys last = gap ++ ((if isPercent then ['%'] else []) ++ trail) := by
  cases isPercent with
  | false =>
    obtain rfl := List.map_eq_nil_iff.mp kinds
    exact ⟨[], last, rfl, blank, rfl⟩
  | true =>
    obtain ⟨y, rfl, percent⟩ := List.map_eq_singleton_iff.mp kinds
    obtain ⟨before, spells⟩ := valid y (List.mem_singleton_self y)
    have sign : y.spelling = ['%'] := by
      rw [percent] at spells
      exact spells.eq_text.resolve_left nofun
    exact ⟨y.gap, last, before, blank, by rw [Lexeme.join, sign]; rfl⟩

/-- The text of a number token, with a percent sign after it or without, shows the token's number. -/
theorem shows_of_tokenize (tokens : Token.tokenize text = .ok (t :: signs))
    (mark : t.kind = .number number)
    (kinds : signs.map (·.kind) = if isPercent then [.operator .percent] else []) :
    ∃ n, Shows Char.isDigit text n isPercent ∧ Numeral.floatOfText number = n.toFloat := by
  obtain ⟨xs, last, valid, blank, whole, same⟩ := Token.exists_join_of_tokenize tokens
  rw [List.map_cons, mark, kinds] at same
  obtain ⟨x, ys, rfl, first, others⟩ := List.map_eq_cons_iff.mp same.symm
  obtain ⟨before, spells⟩ := valid x List.mem_cons_self
  rw [first] at spells
  obtain ⟨n, denotes, double⟩ := spells.denotes
  obtain ⟨gap, trail, between, after, rest⟩ := exists_join_percent
    (fun y member => valid y (List.mem_cons_of_mem _ member)) blank others
  refine ⟨n, ⟨x.gap, x.spelling, gap, trail, denotes, before, between, after, ?_⟩, double⟩
  have sign : Plain (if isPercent then ['%'] else []) := by
    cases isPercent <;> simp [Plain]
  rw [whole, Lexeme.join, rest]
  exact ((plain_of_blank before).append ((plain_of_denotes denotes).append
    ((plain_of_blank between).append (sign.append (plain_of_blank after))))).filter_eq_self

end Literal

namespace Expr

variable {v : Address → Except Failure Number}

theorem parse_number (tokens : Token.tokenize text = .ok (t :: signs))
    (mark : t.kind = .number number)
    (kinds : signs.map (·.kind) = if isPercent then [.operator .percent] else [])
    (finite : (Numeral.floatOfText number).isFinite = true) :
    parse text = .ok (if isPercent then .percent (.const (Numeral.floatOfText number))
      else .const (Numeral.floatOfText number)) := by
  have only := Derives.whole (.number mark finite)
  cases isPercent with
  | false =>
    obtain rfl := List.map_eq_nil_iff.mp kinds
    exact parse_of_derives tokens only.formula_of_percent
  | true =>
    obtain ⟨sign, rfl, percent⟩ := List.map_eq_singleton_iff.mp kinds
    exact parse_of_derives tokens (only.percent percent).formula_of_percent

theorem parse_number_overflow (tokens : Token.tokenize text = .ok (t :: signs))
    (mark : t.kind = .number number) (infinite : (Numeral.floatOfText number).isFinite = false) :
    parse text = .error (.numberOverflow number t.position) := by
  rw [parse, tokens]
  refine parseTokens_of_primary ?_ (by simp only [Sign.ofToken?, mark]) fun other => ?_
  · rw [parsePrimary]
    simp only [mark, ofNumber, infinite]
    rfl
  · rw [mark] at other
    cases other

theorem eval_const (finite : x.isFinite = true) :
    (const x).eval v = .ofOutcome (.ok (.double x)) := by
  simp only [eval, Number.checked, if_pos finite]

theorem eval_percent_const (finite : x.isFinite = true) :
    (percent (const x)).eval v = .ofOutcome (.ok (.double (x / 100.0))) := by
  simp only [eval, Number.checked, if_pos finite]
  rfl

end Expr

/-- A number with a percent sign or without counts the same as the text of a cell and as an
    expression. One beyond the doubles counts as zero in a cell and is no expression. -/
theorem Literal.value_eq_evalText (tokens : Token.tokenize text = .ok (t :: signs))
    (mark : t.kind = .number number)
    (kinds : signs.map (·.kind) = if isPercent then [.operator .percent] else []) :
    let x := Numeral.floatOfText number
    let y := if isPercent then x / 100.0 else x
    let failure := Failure.numberOverflow number t.position
    (x.isFinite = true →
      value text = (y, []) ∧ ∀ v, Expr.evalText v text = .ofOutcome (.ok (.double y))) ∧
    (x.isFinite = false →
      value text = (0.0, [.outOfRange text]) ∧ failure.kind = .expression ∧
        ∀ v, Expr.evalText v text = .ofOutcome (.error failure)) := by
  intro x y failure
  obtain ⟨n, shows, double⟩ := shows_of_tokenize tokens mark kinds
  have literal := value_of_shows (shows.mono fun _ => Text.isDecimalDigit_of_isDigit)
  rw [← double] at literal
  constructor
  · intro finite
    refine ⟨literal.trans (if_pos finite), fun v => ?_⟩
    rw [Expr.evalText, Expr.parse_number tokens mark kinds finite]
    cases isPercent with
    | true => exact Expr.eval_percent_const finite
    | false => exact Expr.eval_const finite
  · intro infinite
    have infinite : (Numeral.floatOfText number).isFinite = false := infinite
    refine ⟨literal.trans (if_neg (by rw [infinite]; exact Bool.false_ne_true)), rfl, fun v => ?_⟩
    rw [Expr.evalText, Expr.parse_number_overflow tokens mark infinite]

/-- A point directly before the exponent, and an exponent too large. -/
theorem Literal.value_eq_evalText_of_exponent :
    (Token.tokenize "\t1.e5 % " = .ok [⟨.number "1.e5", 0⟩, ⟨.operator .percent, 5⟩] ∧
      (Numeral.floatOfText "1.e5").isFinite = true ∧
      value "\t1.e5 % " = (Numeral.floatOfText "1.e5" / 100.0, []) ∧
      ∀ v, Expr.evalText v "\t1.e5 % " =
        .ofOutcome (.ok (.double (Numeral.floatOfText "1.e5" / 100.0)))) ∧
    (Token.tokenize " 1e999" = .ok [⟨.number "1e999", 0⟩] ∧
      (Numeral.floatOfText "1e999").isFinite = false ∧
      value " 1e999" = (0.0, [.outOfRange " 1e999"]) ∧
      ∀ v, Expr.evalText v " 1e999" = .ofOutcome (.error (.numberOverflow "1e999" 0))) := by
  have short : Token.tokenize "\t1.e5 % " =
      .ok [⟨.number "1.e5", 0⟩, ⟨.operator .percent, 5⟩] := by cbv
  have finite : (Numeral.floatOfText "1.e5").isFinite = true := by decide +kernel
  have long : Token.tokenize " 1e999" = .ok [⟨.number "1e999", 0⟩] := by cbv
  have infinite : (Numeral.floatOfText "1e999").isFinite = false := by cbv
  obtain ⟨read, calculated⟩ := (@value_eq_evalText _ _ true _ _ short rfl rfl).1 finite
  obtain ⟨zero, -, refused⟩ := (@value_eq_evalText _ _ false _ _ long rfl rfl).2 infinite
  exact ⟨⟨short, finite, read, calculated⟩, long, infinite, zero, refused⟩

end Spreadsheet
