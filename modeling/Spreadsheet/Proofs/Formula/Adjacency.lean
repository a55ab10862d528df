import Mathlib.Data.List.Chain
import Spreadsheet.Proofs.Formula.Completeness

namespace Spreadsheet

namespace Token

namespace Kind

def isOperand : Kind → Bool
  | .identifier _ | .number _ | .boolean _ => true
  | _ => false

/-- Tokens that may stand next to each other in a formula: of two names or numbers none follows the
    other, only the name of a function stands in front of a parenthesis, and an operator in front of
    another one is a percent sign or the other one is a sign. -/
def Meets : Kind → Kind → Prop
  | .identifier name, .leftParen => (Function.lookup? name).isSome = true
  | .operator op, .operator op' => op = .percent ∨ op' = .plus ∨ op' = .minus
  | k, k' => ¬ (k.isOperand = true ∧ k'.isOperand = true)

theorem Meets.not_isOperand {k k' : Kind} (h : k.Meets k') (operand : k.isOperand = true) :
    k'.isOperand = false := by
  cases k' with
  | identifier | number | boolean =>
    cases k with
    | identifier | number | boolean => exact absurd ⟨rfl, rfl⟩ h
    | _ => cases operand
  | _ => rfl

def Closes : Kind → Prop
  | .identifier _ | .number _ | .boolean _ | .rightParen | .operator .percent => True
  | _ => False

def IsMark : Kind → Prop
  | .operator _ | .comma => True
  | _ => False

end Kind

def Meets (t u : Token) : Prop := t.kind.Meets u.kind

variable {t u mark left right : Token} {ts us : List Token}

def Opens (t : Token) : Prop := (Phrase.operation .comparison).opens t = true

theorem Kind.meets_of_closes {k k' : Kind} (h : k.Closes) (mark : k'.IsMark ∨ k' = .rightParen) :
    k.Meets k' := by
  cases k' with
  | operator op' =>
    cases k with
    | operator op => cases op <;> first | exact .inl rfl | exact h.elim
    | _ => exact fun both => nomatch both.2
  | comma | rightParen => cases k <;> exact fun both => nomatch both.2
  | _ => exact mark.elim False.elim nofun

theorem meets_of_closes (h : t.kind.Closes) (mark : u.kind.IsMark ∨ u.kind = .rightParen) :
    t.Meets u := Kind.meets_of_closes h mark

theorem meets_of_opens (h : u.Opens) (mark : t.kind.IsMark ∨ t.kind = .leftParen) :
    t.Meets u := by
  unfold Opens Phrase.opens at h
  unfold Meets
  cases first : t.kind with
  | operator op =>
    cases second : u.kind with
    | operator op' =>
      rw [second] at h
      cases op' <;> first | exact .inr (.inl rfl) | exact .inr (.inr rfl) | cases h
    | _ => exact fun both => nomatch both.1
  | comma | leftParen => cases u.kind <;> exact fun both => nomatch both.1
  | _ => simp [first, Kind.IsMark] at mark

/-- The tokens of a phrase or of some phrases with marks between them. -/
structure Proper (ts : List Token) : Prop where
  chain : ts.IsChain Meets
  opens : ∀ t ∈ ts.head?, t.Opens
  closes : ∀ t ∈ ts.getLast?, t.kind.Closes

theorem Proper.around (h : Proper ts) (h' : Proper us) (some : ts ≠ []) (some' : us ≠ [])
    (mark : t.kind.IsMark) : Proper (ts ++ t :: us) where
  chain := by
    refine h.chain.append (h'.chain.cons fun u head => ?_) ?_
    · exact meets_of_opens (h'.opens u head) (.inl mark)
    · rintro u last v ⟨⟩
      exact meets_of_closes (h.closes u last) (.inl mark)
  opens := by
    rw [List.head?_append_of_ne_nil _ some]
    exact h.opens
  closes := by
    rw [List.getLast?_append_of_ne_nil _ (by simp), List.getLast?_cons_of_ne_nil some']
    exact h'.closes

theorem Proper.parens (h : Proper ts) (opening : left.kind = .leftParen)
    (closing : right.kind = .rightParen) : (left :: ts ++ [right]).IsChain Meets := by
  refine (h.chain.cons fun u head => ?_).append (.singleton right) ?_
  · exact meets_of_opens (h.opens u head) (.inr opening)
  · rintro u last v ⟨⟩
    cases ts with
    | nil =>
      cases last
      simp [Meets, Kind.Meets, Kind.isOperand, opening, closing]
    | cons t ts =>
      rw [List.getLast?_cons_of_ne_nil (by simp)] at last
      exact meets_of_closes (h.closes u last) (.inr closing)

theorem Separated.proper {parts : List (List Token)} (h : Separated parts ts)
    (proper : ∀ us ∈ parts, Proper us ∧ us ≠ []) : Proper ts ∧ (parts ≠ [] → ts ≠ []) := by
  induction h with
  | none => exact ⟨⟨.nil, nofun, nofun⟩, fun none => absurd rfl none⟩
  | one us => exact ⟨(proper us (by simp)).1, fun _ => (proper us (by simp)).2⟩
  | @more us vs ws rest comma mark others ih =>
    obtain ⟨first, some⟩ := proper us (by simp)
    obtain ⟨later, some'⟩ := ih fun ts member => proper ts (List.mem_cons_of_mem _ member)
    have divides : comma.kind.IsMark := by simp [Kind.IsMark, mark]
    exact ⟨first.around later some (some' (by simp)) divides, fun _ => by simp⟩

end Token

namespace Derives

open Token

variable {p : Phrase} {ts : List Token} {e : Expr}

theorem head?_opens (h : Derives p ts e) (other : p ≠ .formula) : ∀ t ∈ ts.head?, t.Opens := by
  obtain ⟨t, us, rfl, opening⟩ := h.opens
  rintro u ⟨⟩
  exact Phrase.opens_mono opening other fun _ => rfl

theorem getLast?_closes (h : Derives p ts e) : ∀ t ∈ ts.getLast?, t.kind.Closes := by
  induction h with
  | formula _ ih | operand _ ih | unsigned _ ih | whole _ ih | word _ ih => exact ih
  | equalSign _ body ih | signed _ body ih =>
    rw [List.getLast?_cons_of_ne_nil body.ne_nil]
    exact ih
  | operation _ _ right _ ih =>
    rw [List.getLast?_append_of_ne_nil _ (by simp), List.getLast?_cons_of_ne_nil right.ne_nil]
    exact ih
  | percent _ mark | group _ _ mark | call _ _ _ _ _ mark =>
    rw [List.getLast?_concat]
    rintro u ⟨⟩
    simp [Kind.Closes, mark]
  | number mark | truth mark | reference mark =>
    rintro u ⟨⟩
    simp [Kind.Closes, mark]

/-- Neighbouring tokens of a formula may stand next to each other. -/
theorem isChain (h : Derives p ts e) : ts.IsChain Token.Meets := by
  induction h with
  | formula _ ih | operand _ ih | unsigned _ ih | whole _ ih | word _ ih => exact ih
  | equalSign mark body ih =>
    refine ih.cons fun u head => meets_of_opens (body.head?_opens (by simp) u head) (.inl ?_)
    simp [Kind.IsMark, mark]
  | signed mark operand ih =>
    refine ih.cons fun u head => meets_of_opens (operand.head?_opens (by simp) u head) (.inl ?_)
    rcases Sign.kind_of_ofToken? mark with kind | kind <;> simp [Kind.IsMark, kind]
  | @operation level ts us t op x y left mark right ih ih' =>
    obtain ⟨o, kind, -⟩ := Level.opOfToken?_eq_some_iff.mp mark
    have first : Proper ts := ⟨ih, left.head?_opens (by simp), left.getLast?_closes⟩
    have later : Proper us :=
      ⟨ih', right.head?_opens level.operand_ne_formula, right.getLast?_closes⟩
    exact (first.around later left.ne_nil right.ne_nil (by simp [Kind.IsMark, kind])).chain
  | percent operand mark ih =>
    refine ih.append (.singleton _) ?_
    rintro u last v ⟨⟩
    exact meets_of_closes (operand.getLast?_closes u last) (.inl (by simp [Kind.IsMark, mark]))
  | number | truth | reference => exact .singleton _
  | @group left right ts e opening inner closing ih =>
    exact Proper.parens ⟨ih, inner.head?_opens (by simp), inner.getLast?_closes⟩ opening closing
  | @call t left right name f arguments ts mark known opening inner separated closing _ ih =>
    have proper : ∀ us ∈ arguments.map Prod.fst, Proper us ∧ us ≠ [] := by
      intro us member
      obtain ⟨p, argument, rfl⟩ := List.mem_map.mp member
      have derived := inner p argument
      exact ⟨⟨ih p argument, derived.head?_opens (by simp), derived.getLast?_closes⟩,
        derived.ne_nil⟩
    refine ((separated.proper proper).1.parens opening closing).cons ?_
    rintro u ⟨⟩
    simp [Token.Meets, Kind.Meets, mark, opening, known]

end Derives

end Spreadsheet
