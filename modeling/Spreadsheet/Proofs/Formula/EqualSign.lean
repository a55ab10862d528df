import Spreadsheet.Proofs.Fill.Shift
import Spreadsheet.Proofs.Formula.Layout
import Spreadsheet.Proofs.Formula.Respelling

namespace Spreadsheet

open Token

variable {text body : String} {ts : List Token} {t : Token} {e : Expr} {x : Lexeme}
  {xs : List Lexeme} {last : List Char}

namespace Token

theorem Kind.eq_equal_of_head? {k : Kind} (mark : k.isOperand = false)
    (head : k.text.toList.head? = some '=') : k = .operator .equal := by
  cases k with
  | operator op =>
    cases op with
    | equal => rfl
    | _ => exact absurd head (by decide)
  | leftParen | rightParen | comma => exact absurd head (by decide)
  | _ => cases mark

namespace Lexeme

theorem join_cons_of_equal (valid : x.Valid) (sign : x.kind = .operator .equal) :
    join (x :: xs) last = x.gap ++ '=' :: join xs last := by
  have spelled := valid.spells.text_of_mark (by rw [sign]; rfl)
  rw [sign] at spelled
  rw [join, ← spelled]
  rfl

theorem head?_dropBlanks_join_iff (valid : ∀ x ∈ xs, x.Valid)
    (blank : last.all Text.isBlank = true) :
    (Text.dropBlanks (join xs last)).head? = some '=' ↔
      ∃ x ∈ xs.head?, x.kind = .operator .equal := by
  constructor
  · intro head
    obtain ⟨x, first, mark, text⟩ := head?_dropBlanks_join valid blank head (by decide)
    exact ⟨x, first, Kind.eq_equal_of_head? mark text⟩
  · rintro ⟨x, first, sign⟩
    obtain ⟨xs, rfl⟩ := List.head?_eq_some_iff.mp first
    have front := valid x List.mem_cons_self
    have dropped : Text.dropBlanks (x.gap ++ '=' :: join xs last) = '=' :: join xs last :=
      Text.dropWhile_run front.blank rfl
    rw [join_cons_of_equal front sign, dropped]
    rfl

end Lexeme

end Token

namespace Derives

theorem of_equal (h : Derives .formula (t :: ts) e) (sign : t.kind = .operator .equal) :
    Derives (.operation .comparison) ts e := by
  cases h with
  | equalSign _ body => exact body
  | formula body =>
    obtain ⟨u, us, same, opening⟩ := body.opens
    cases same
    simp [Phrase.opens, sign] at opening

theorem head?_ne_equal (h : Derives (.operation .comparison) ts e) :
    ∀ t ∈ ts.head?, t.kind ≠ .operator .equal := by
  intro t head sign
  obtain ⟨u, us, rfl, opening⟩ := h.opens
  cases head
  simp [Phrase.opens, sign] at opening

theorem comparison_of_head? (h : Derives .formula ts e)
    (other : ∀ t ∈ ts.head?, t.kind ≠ .operator .equal) :
    Derives (.operation .comparison) ts e := by
  cases h with
  | formula body => exact body
  | equalSign sign _ => exact absurd sign (other _ rfl)

end Derives

namespace Expr

theorem exists_join_of_parse (parsed : parse text = .ok e) :
    ∃ xs last, (∀ x ∈ xs, x.Valid) ∧ last.all Text.isBlank = true ∧
      text.toList = Lexeme.join xs last ∧
      ∀ ts : List Token, ts.map (·.kind) = xs.map Lexeme.kind → Derives .formula ts e := by
  obtain ⟨ts, tokens, derived⟩ := exists_derives_of_parse parsed
  obtain ⟨xs, last, valid, blank, whole, kinds⟩ := exists_join_of_tokenize tokens
  exact ⟨xs, last, valid, blank, whole, fun us same => derived.of_kinds (same.trans kinds.symm)⟩

theorem exists_join_of_formulaBody? (formula : formulaBody? text = some body)
    (parsed : parse text = .ok e) :
    ∃ xs last, (∀ x ∈ xs, x.Valid) ∧ last.all Text.isBlank = true ∧
      body.toList = Lexeme.join xs last ∧
      ∀ ts : List Token, ts.map (·.kind) = xs.map Lexeme.kind →
        Derives (.operation .comparison) ts e := by
  obtain ⟨xs, last, valid, blank, whole, derive⟩ := exists_join_of_parse parsed
  rw [formulaBody?_eq_some_iff.mp formula, String.toList_ofList] at whole
  have starts : (Text.dropBlanks (Lexeme.join xs last)).head? = some '=' := by
    rw [← whole]
    rfl
  obtain ⟨x, first, sign⟩ := (Lexeme.head?_dropBlanks_join_iff valid blank).mp starts
  obtain ⟨xs, rfl⟩ := List.head?_eq_some_iff.mp first
  obtain ⟨front, later⟩ := List.forall_mem_cons.mp valid
  rw [Lexeme.join_cons_of_equal front sign] at whole
  -- A blank is no equal sign, so the text starts with the lexeme itself.
  have gap : x.gap = [] := by
    have blanks := front.blank
    cases gap : x.gap with
    | nil => rfl
    | cons c cs =>
      rw [gap, List.cons_append, List.cons.injEq] at whole
      rw [gap, ← whole.1] at blanks
      cases blanks
  rw [gap, List.nil_append, List.cons.injEq] at whole
  refine ⟨xs, last, later, blank, whole.2, fun ts same => ?_⟩
  have derived := derive (⟨x.kind, 0⟩ :: ts) (by rw [List.map_cons, same, List.map_cons])
  exact derived.of_equal sign

theorem parse_of_formulaBody? (formula : formulaBody? text = some body)
    (parsed : parse body = .ok e) (other : (Text.dropBlanks body.toList).head? ≠ some '=') :
    parse text = .ok e := by
  obtain ⟨xs, last, valid, blank, whole, derive⟩ := exists_join_of_parse parsed
  rw [whole, ne_eq, Lexeme.head?_dropBlanks_join_iff valid blank] at other
  let sign : Lexeme := ⟨[], ['='], .operator .equal⟩
  have valid' : ∀ x ∈ sign :: xs, x.Valid :=
    List.forall_mem_cons.mpr ⟨⟨rfl, .operator .equal⟩, valid⟩
  have joined : text = String.ofList (Lexeme.join (sign :: xs) last) := by
    rw [formulaBody?_eq_some_iff.mp formula, whole]
    rfl
  rw [joined]
  refine parse_join valid' blank fun ts same => ?_
  obtain ⟨t, us, rfl, kind, kinds⟩ := List.map_eq_cons_iff.mp same
  refine .equalSign kind ((derive us kinds).comparison_of_head? fun u head equal => ?_)
  have first : xs.head?.map Lexeme.kind = some u.kind := by
    rw [← List.head?_map, ← kinds, List.head?_map, head]
    rfl
  obtain ⟨x, front, kind'⟩ := Option.map_eq_some_iff.mp first
  exact other ⟨x, front, kind'.trans equal⟩

/-- A text that starts with an equal sign is read as an expression just if what follows the sign is
    read as it and does not start with an equal sign of its own. After a second equal sign, what
    follows the first one may be read as an expression, but the text is not. -/
theorem parse_equalSign_iff (formula : formulaBody? text = some body) (e : Expr) :
    parse text = .ok e ↔
      parse body = .ok e ∧ (Text.dropBlanks body.toList).head? ≠ some '=' := by
  refine ⟨fun parsed => ?_, fun ⟨parsed, other⟩ => parse_of_formulaBody? formula parsed other⟩
  obtain ⟨xs, last, valid, blank, whole, derive⟩ := exists_join_of_formulaBody? formula parsed
  constructor
  · rw [← @String.ofList_toList body, whole]
    exact parse_join valid blank fun ts same => .formula (derive ts same)
  · rw [whole, ne_eq, Lexeme.head?_dropBlanks_join_iff valid blank]
    rintro ⟨x, first, sign⟩
    obtain ⟨xs, rfl⟩ := List.head?_eq_some_iff.mp first
    exact (derive _ (Lexeme.kinds_tokens 0 _)).head?_ne_equal _ rfl sign

theorem parse_equalSign_iff_of_comparison :
    let e : Expr :=
      .binary .equal (.ref ⟨⟨0, 0, false, false⟩, "a1"⟩) (.ref ⟨⟨1, 0, false, true⟩, "B$1"⟩)
    formulaBody? "= a1=B$1" = some " a1=B$1" ∧ parse " a1=B$1" = .ok e ∧
      parse "= a1=B$1" = .ok e := by
  intro e
  have formula : formulaBody? "= a1=B$1" = some " a1=B$1" := by cbv
  have parsed : parse " a1=B$1" = .ok e := by cbv
  exact ⟨formula, parsed, (parse_equalSign_iff formula e).mpr ⟨parsed, by decide⟩⟩

theorem parse_of_second_equal :
    formulaBody? "==A1" = some "=A1" ∧
      parse "=A1" = .ok (.ref ⟨⟨0, 0, false, false⟩, "A1"⟩) ∧
      parse "==A1" = .error (.unexpectedToken "=" 1) := by
  refine ⟨?_, ?_, ?_⟩
  · cbv
  · cbv
  · cbv

end Expr

end Spreadsheet
