import Spreadsheet.Proofs.Formula.WellFormed
import Spreadsheet.Proofs.Token.Lexeme
import Spreadsheet.Proofs.Token.Word

namespace Spreadsheet

namespace Token

variable {spelling digits last : List Char} {kind : Kind} {x : Lexeme} {xs : List Lexeme}
  {text : String} {ts : List Token} {t : Token} {f : Failure}

theorem Spells.isInfix_of_digits (h : Spells spelling kind) (all : digits.all Char.isDigit = true)
    (some : digits ≠ []) (within : digits <:+: kind.text.toList) : digits <:+: spelling := by
  rcases h.eq_text with ⟨b, rfl⟩ | same
  · obtain ⟨c, cs, rfl⟩ := List.exists_cons_of_ne_nil some
    have digit : c.isDigit = true := List.all_eq_true.mp all c List.mem_cons_self
    have member : c ∈ (if b then "TRUE" else "FALSE").toList := within.subset List.mem_cons_self
    have letters : ∀ b : Bool, ∀ c ∈ (if b then "TRUE" else "FALSE").toList,
        c.isDigit = false := by
      intro b
      cases b <;> simp
    rw [letters b c member] at digit
    cases digit
  · rwa [same]

namespace Lexeme

theorem isInfix_join (member : x ∈ xs) : x.spelling <:+: join xs last := by
  induction xs with
  | nil => cases member
  | cons y xs ih =>
    rcases List.mem_cons.mp member with rfl | later
    · exact ⟨x.gap, join xs last, by rw [join, List.append_assoc]⟩
    · have rest : join xs last <:+: y.gap ++ (y.spelling ++ join xs last) :=
        ((List.suffix_append _ _).trans (List.suffix_append _ _)).isInfix
      exact (ih later).trans rest

theorem length_le_join (valid : ∀ x ∈ xs, x.Valid) : xs.length ≤ (join xs last).length := by
  induction xs with
  | nil => exact Nat.zero_le _
  | cons x xs ih =>
    have rest := ih fun y member => valid y (List.mem_cons_of_mem _ member)
    have spelled := List.length_pos_iff.mpr (valid x List.mem_cons_self).spells.ne_nil
    simp only [join, List.length_append, List.length_cons]
    omega

end Lexeme

theorem length_le_of_tokenize (tokens : tokenize text = .ok ts) : ts.length ≤ text.length := by
  obtain ⟨xs, last, valid, -, whole, kinds⟩ := exists_join_of_tokenize tokens
  have count := congrArg List.length kinds
  rw [List.length_map, List.length_map] at count
  rw [count, ← String.length_toList, whole]
  exact Lexeme.length_le_join valid

theorem ofLongRow_of_tokenize (tokens : tokenize text = .ok ts) (member : t ∈ ts)
    (row : f.OfLongRow t.text) : f.OfLongRow text := by
  obtain ⟨digits, within, all, long, rfl⟩ := row
  obtain ⟨xs, last, valid, -, whole, kinds⟩ := exists_join_of_tokenize tokens
  have kind : t.kind ∈ xs.map Lexeme.kind := kinds ▸ List.mem_map_of_mem member
  obtain ⟨x, lexeme, same⟩ := List.mem_map.mp kind
  have some : digits ≠ [] := by
    rintro rfl
    exact absurd long (Nat.not_lt_zero _)
  have spelled : digits <:+: x.kind.text.toList := by
    rw [same]
    exact within
  refine ⟨digits, ?_, all, long, rfl⟩
  rw [whole]
  exact ((valid x lexeme).spells.isInfix_of_digits all some spelled).trans
    (Lexeme.isInfix_join lexeme)

end Token

theorem Parsed.outcome_andThen_of_error {α β : Type} {n : Nat} {p : Parsed n α} {f : Failure}
    (failed : p.outcome = .error f)
    (g : α → (rest : List Token) → rest.length ≤ n → Parsed rest.length β) :
    (p.andThen g).outcome = .error f := by
  obtain ⟨outcome, rest, bound⟩ := p
  cases failed
  rfl

namespace Expr

variable {text name : String} {position : Nat} {e : Expr} {f : Failure}

/-- A formula's text is no formula, or a row number in it is too long to be read. -/
theorem parse_fails (text : String) :
    Fails (fun f => f.IsTextual ∨ f.OfLongRow text) (parse text) := by
  intro f failed
  unfold parse at failed
  cases tokens : Token.tokenize text with
  | error g =>
    rw [tokens] at failed
    cases failed
    exact .inl (Token.tokenize_fails text _ tokens)
  | ok ts =>
    rw [tokens] at failed
    rcases parseTokens_fails ts f failed with textual | ⟨t, member, row⟩
    · exact .inl textual
    · exact .inr (Token.ofLongRow_of_tokenize tokens member row)

theorem wellFormed_of_parse (parsed : parse text = .ok e) : e.WellFormed text.length := by
  obtain ⟨ts, tokens, derived⟩ := exists_derives_of_parse parsed
  exact derived.wellFormed.mono (Token.length_le_of_tokenize tokens)

theorem parseTokens_of_primary {t : Token} {rest : List Token}
    (failed : (parsePrimary (t :: rest)).outcome = .error f) (unsigned : Sign.ofToken? t = none)
    (other : t.kind ≠ .operator .equal) : parseTokens (t :: rest) = .error f := by
  have percent : (parsePercent (t :: rest)).outcome = .error f := by
    rw [parsePercent]
    exact Parsed.outcome_andThen_of_error failed _
  have signed : (parseSigned (t :: rest)).outcome = .error f := by
    rw [parseSigned]
    simp only [unsigned]
    exact percent
  -- Each level fails with its first operand.
  have operation (level : Level) (operand : (parseOperand level (t :: rest)).outcome = .error f) :
      (parseOperation level (t :: rest)).outcome = .error f := by
    rw [parseOperation]
    exact Parsed.outcome_andThen_of_error operand _
  have power := operation .power (by rwa [parseOperand])
  have product := operation .product (by rwa [parseOperand])
  have sum := operation .sum (by rwa [parseOperand])
  have comparison := operation .comparison (by rwa [parseOperand])
  have body : dropEqualSign (t :: rest) = t :: rest := if_neg other
  rw [parseTokens, body, parseBody]
  exact Parsed.outcome_andThen_of_error comparison _

theorem parseTokens_word (failed : ofWord name position = .error f) :
    parseTokens [⟨.identifier name, position⟩] = .error f := by
  refine parseTokens_of_primary ?_ rfl nofun
  rw [parsePrimary, parseWord]
  exact failed

theorem parse_of_longAddress (long : f.OfLongAddress name) : parse name = .error f := by
  have failed := Address.parse?_eq_error_iff.mpr long
  obtain ⟨s, valid, whole, -⟩ := long
  have spells := Token.spells_chars valid
  rw [← whole, String.ofList_toList] at spells
  obtain ⟨position, tokens⟩ := Token.exists_tokenize spells
  rw [parse, tokens]
  refine parseTokens_word ?_
  rw [ofWord, failed]

end Expr

end Spreadsheet
