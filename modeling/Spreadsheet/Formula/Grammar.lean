import Spreadsheet.Address.Notation
import Spreadsheet.Decimal.Numeral
import Spreadsheet.Formula.Function
import Spreadsheet.Formula.Phrase

namespace Spreadsheet

/-- Some lists of tokens with a comma between each two of them. -/
inductive Token.Separated : List (List Token) → List Token → Prop where
  | none : Separated [] []
  | one (ts : List Token) : Separated [ts] ts
  | more {ts us ws : List Token} {rest : List (List Token)} {comma : Token}
      (mark : comma.kind = .comma) (others : Separated (us :: rest) ws) :
      Separated (ts :: us :: rest) (ts ++ comma :: ws)

/-- The grammar of formulas: the tokens of a phrase, and the expression that they write. -/
inductive Derives : Phrase → List Token → Expr → Prop where
  | formula {ts : List Token} {e : Expr} (body : Derives (.operation .comparison) ts e) :
      Derives .formula ts e
  | equalSign {t : Token} {ts : List Token} {e : Expr} (mark : t.kind = .operator .equal)
      (body : Derives (.operation .comparison) ts e) : Derives .formula (t :: ts) e
  | operand {level : Level} {ts : List Token} {e : Expr} (only : Derives level.operand ts e) :
      Derives (.operation level) ts e
  | operation {level : Level} {ts us : List Token} {t : Token} {op : BinaryOp} {x y : Expr}
      (left : Derives (.operation level) ts x) (mark : level.opOfToken? t = some op)
      (right : Derives level.operand us y) :
      Derives (.operation level) (ts ++ t :: us) (.binary op x y)
  | unsigned {ts : List Token} {e : Expr} (only : Derives .percent ts e) : Derives .signed ts e
  | signed {t : Token} {s : Sign} {ts : List Token} {e : Expr} (mark : Sign.ofToken? t = some s)
      (operand : Derives .signed ts e) : Derives .signed (t :: ts) (.unary s e)
  | whole {ts : List Token} {e : Expr} (only : Derives .primary ts e) : Derives .percent ts e
  | percent {t : Token} {ts : List Token} {e : Expr} (operand : Derives .percent ts e)
      (mark : t.kind = .operator .percent) : Derives .percent (ts ++ [t]) (.percent e)
  | number {t : Token} {text : String} (mark : t.kind = .number text)
      (finite : (Numeral.floatOfText text).isFinite = true) :
      Derives .primary [t] (.const (Numeral.floatOfText text))
  | truth {t : Token} {b : Bool} (mark : t.kind = .boolean b) :
      Derives .primary [t] (.const (if b then 1.0 else 0.0))
  | group {left right : Token} {ts : List Token} {e : Expr} (opening : left.kind = .leftParen)
      (inner : Derives (.operation .comparison) ts e) (closing : right.kind = .rightParen) :
      Derives .primary (left :: ts ++ [right]) e
  | word {ts : List Token} {e : Expr} (only : Derives .word ts e) : Derives .primary ts e
  | reference {t : Token} {name : String} {a : Address} (mark : t.kind = .identifier name)
      (valid : Address.parse name = .ok a) : Derives .word [t] (.ref ⟨a, name⟩)
  | call {t left right : Token} {name : String} {f : Function}
      {arguments : List (List Token × Expr)} {ts : List Token} (mark : t.kind = .identifier name)
      (known : Function.lookup? name = some f) (opening : left.kind = .leftParen)
      (inner : ∀ p ∈ arguments, Derives (.operation .comparison) p.1 p.2)
      (separated : Token.Separated (arguments.map Prod.fst) ts) (closing : right.kind = .rightParen)
      (admitted : f.arity.Admits arguments.length) :
      Derives .word (t :: left :: ts ++ [right]) (.call f.name (arguments.map Prod.snd))

/-- No phrase is empty. -/
theorem Derives.ne_nil {p : Phrase} {ts : List Token} {e : Expr} (h : Derives p ts e) :
    ts ≠ [] := by
  induction h with
  | formula _ ih | operand _ ih | unsigned _ ih | whole _ ih | word _ ih => exact ih
  | _ => simp

end Spreadsheet
