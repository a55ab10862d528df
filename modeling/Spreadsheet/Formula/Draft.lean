import Spreadsheet.Formula.Parse
import Spreadsheet.Token.Rendering

namespace Spreadsheet

/-- An expression with the spelling of its numbers, truth values and references. -/
inductive Draft where
  | number (text : String)
  | truth (value : Bool)
  | reference (text : String)
  | percent (operand : Draft)
  | unary (minus : Bool) (operand : Draft)
  | binary (level : Level) (op : Operator) (left right : Draft)
  | call (f : Function) (arguments : List Draft)

namespace Draft

mutual

/-- The numbers, addresses, operators and calls of a draft are ones that formulas have: a number's
    text is read as one token and its value is finite. -/
def Valid : Draft → Prop
  | number text =>
    Token.tokenize text = .ok [⟨.number text, 0⟩] ∧ (Numeral.floatOfText text).isFinite = true
  | truth _ => True
  | reference text => ∃ a, Address.parse text = .ok a
  | percent d => d.Valid
  | unary _ d => d.Valid
  | binary level op l r => (level.binaryOp? op).isSome = true ∧ l.Valid ∧ r.Valid
  | call f ds => f.arity.Admits ds.length ∧ AllValid ds

def AllValid : List Draft → Prop
  | [] => True
  | d :: ds => d.Valid ∧ AllValid ds

end

mutual

/-- The expression of a draft. -/
def expr? : Draft → Option Expr
  | number text => some (.const (Numeral.floatOfText text))
  | truth b => some (.const (if b then 1.0 else 0.0))
  | reference text => (Address.parse text).toOption.map fun a => .ref ⟨a, text⟩
  | percent d => d.expr?.map .percent
  | unary minus d => d.expr?.map (.unary (if minus then .minus else .plus))
  | binary level op l r =>
    (level.binaryOp? op).bind fun b => l.expr?.bind fun x => r.expr?.map fun y => .binary b x y
  | call f ds => (exprs? ds).map (.call f.name)

def exprs? : List Draft → Option (List Expr)
  | [] => some []
  | d :: ds => d.expr?.bind fun e => (exprs? ds).map (e :: ·)

end

/-- The tightest phrase that a draft is without parentheses around it. -/
def phrase : Draft → Phrase
  | number _ | truth _ => .primary
  | reference _ | call _ _ => .word
  | percent _ => .percent
  | unary _ _ => .signed
  | binary level _ _ _ => .operation level

/-- How loose a phrase is. -/
def looseness : Phrase → Nat
  | .word => 0
  | .primary => 1
  | .percent => 2
  | .signed => 3
  | .operation .power => 4
  | .operation .product => 5
  | .operation .sum => 6
  | .operation .comparison => 7
  | .formula => 8

/-- Puts parentheses around some tokens of a phrase that is looser than the one they stand for. -/
def grouped (inner outer : Phrase) (kinds : List Token.Kind) : List Token.Kind :=
  if looseness inner ≤ looseness outer then kinds else .leftParen :: kinds ++ [.rightParen]

mutual

/-- The tokens of a draft, with parentheses only around operands that would be read otherwise. -/
def kinds : Draft → List Token.Kind
  | number text => [.number text]
  | truth b => [.boolean b]
  | reference text => [.identifier text]
  | percent d => grouped d.phrase .percent d.kinds ++ [.operator .percent]
  | unary minus d =>
    .operator (if minus then .minus else .plus) :: grouped d.phrase .signed d.kinds
  | binary level op l r =>
    grouped l.phrase (.operation level) l.kinds ++
      .operator op :: grouped r.phrase level.operand r.kinds
  | call f ds => .identifier f.name :: .leftParen :: argumentKinds ds ++ [.rightParen]

/-- The tokens of arguments, with commas between them. -/
def argumentKinds : List Draft → List Token.Kind
  | [] => []
  | [d] => d.kinds
  | d :: ds => d.kinds ++ .comma :: argumentKinds ds

end

/-- A text of a draft: its tokens after some gaps. -/
def text (d : Draft) (gaps : List (List Char)) (last : List Char) : String :=
  String.ofList (Token.render (gaps.zip d.kinds) last)

end Draft

end Spreadsheet
