import Spreadsheet.Address.Notation
import Spreadsheet.Decimal.Numeral
import Spreadsheet.Formula.Function
import Spreadsheet.Formula.Phrase
import Spreadsheet.Token.Lexer

namespace Spreadsheet

/-- What a phrase at the head of some tokens gives, and the tokens after it, no more than
    `limit`. A failure also leaves the tokens that it did not read. -/
structure Parsed (limit : Nat) (α : Type) where
  outcome : Except Failure α
  rest : List Token
  bound : rest.length ≤ limit

namespace Parsed

/-- Reads no token. -/
def keep {α : Type} (outcome : Except Failure α) (ts : List Token) : Parsed ts.length α :=
  ⟨outcome, ts, Nat.le_refl _⟩

/-- Reads one token. -/
def skip {α : Type} (outcome : Except Failure α) (t : Token) (rest : List Token) :
    Parsed (t :: rest).length α := ⟨outcome, rest, Nat.le_succ _⟩

def widen {m n : Nat} {α : Type} (p : Parsed m α) (h : m ≤ n) : Parsed n α :=
  ⟨p.outcome, p.rest, Nat.le_trans p.bound h⟩

/-- Goes on with the tokens that are left. -/
def andThen {n : Nat} {α β : Type} (p : Parsed n α)
    (f : α → (rest : List Token) → rest.length ≤ n → Parsed rest.length β) : Parsed n β :=
  match p with
  | ⟨.error e, rest, h⟩ => ⟨.error e, rest, h⟩
  | ⟨.ok x, rest, h⟩ => (f x rest h).widen h

def map {n : Nat} {α β : Type} (f : α → β) (p : Parsed n α) : Parsed n β :=
  ⟨p.outcome.map f, p.rest, p.bound⟩

end Parsed

namespace Expr

/-- An expression and all the percent signs after it. -/
def withPercents (e : Expr) : (ts : List Token) → Parsed ts.length Expr
  | [] => .keep (.ok e) []
  | t :: rest =>
    if t.kind = .operator .percent then
      (withPercents (.percent e) rest).widen (Nat.le_succ _)
    else .keep (.ok e) (t :: rest)

/-- A number token stands for a finite double. -/
def ofNumber (text : String) (position : Nat) : Except Failure Expr :=
  let x := Numeral.floatOfText text
  if x.isFinite then .ok (.const x) else .error (.numberOverflow text position)

def ofTruth (b : Bool) : Expr := .const (if b then 1.0 else 0.0)

/-- A word that no parenthesis follows is a reference. -/
def ofWord (text : String) (position : Nat) : Except Failure Expr :=
  match Address.parse? text with
  | .error e => .error e
  | .ok none => .error (.invalidReference text position)
  | .ok (some a) => .ok (.ref ⟨a, text⟩)

/-- A call with all its arguments. -/
def ofCall (f : Function) (arguments : List Expr) : Except Failure Expr :=
  (f.arity.check f.name arguments.length).map fun _ => .call f.name arguments

/-- The parenthesis that ends a group. -/
def closeGroup (e : Expr) : (ts : List Token) → Parsed ts.length Expr
  | [] => .keep (.error .unclosedGroup) []
  | t :: rest =>
    if t.kind = .rightParen then .skip (.ok e) t rest
    else .keep (.error .unclosedGroup) (t :: rest)

mutual

/-- Operands with operators of a level between them. -/
def parseOperation (level : Level) (ts : List Token) : Parsed ts.length Expr :=
  (parseOperand level ts).andThen fun left rest _ => parseChain level left rest
termination_by 16 * ts.length + level.rank + 1
decreasing_by all_goals omega

/-- An operand of a level: an operation of the next level, or a signed operand. -/
def parseOperand (level : Level) (ts : List Token) : Parsed ts.length Expr :=
  match level with
  | .comparison => parseOperation .sum ts
  | .sum => parseOperation .product ts
  | .product => parseOperation .power ts
  | .power => parseSigned ts
termination_by 16 * ts.length + level.rank
decreasing_by all_goals simp only [Level.rank, Nat.add_assoc]; omega

/-- The operators and operands that follow a left operand. -/
def parseChain (level : Level) (left : Expr) (ts : List Token) : Parsed ts.length Expr :=
  match ts with
  | [] => .keep (.ok left) []
  | t :: rest =>
    match level.opOfToken? t with
    | none => .keep (.ok left) (t :: rest)
    | some op =>
      ((parseOperand level rest).andThen fun right rest' _ =>
        parseChain level (.binary op left right) rest').widen (Nat.le_succ _)
termination_by 16 * ts.length
decreasing_by
  · have rank := level.rank_le
    simp only [List.length_cons]
    omega
  · simp only [List.length_cons]
    omega

/-- Any number of signs before an operand with its percent signs. -/
def parseSigned (ts : List Token) : Parsed ts.length Expr :=
  match ts with
  | [] => parsePercent []
  | t :: rest =>
    match Sign.ofToken? t with
    | some sign => ((parseSigned rest).map (.unary sign)).widen (Nat.le_succ _)
    | none => parsePercent (t :: rest)
termination_by 16 * ts.length + 3

def parsePercent (ts : List Token) : Parsed ts.length Expr :=
  (parsePrimary ts).andThen fun e rest _ => e.withPercents rest
termination_by 16 * ts.length + 2

/-- A number, a truth value, a reference, a call or a group in parentheses. -/
def parsePrimary (ts : List Token) : Parsed ts.length Expr :=
  match ts with
  | [] => .keep (.error .unexpectedEnd) []
  | t :: rest =>
    match t.kind with
    | .number text => .skip (ofNumber text t.position) t rest
    | .boolean b => .skip (.ok (ofTruth b)) t rest
    | .identifier _ => parseWord (t :: rest)
    | .leftParen =>
      ((parseOperation .comparison rest).andThen fun e after _ => closeGroup e after).widen
        (Nat.le_succ _)
    | _ => .keep (.error (.unexpectedToken t.text t.position)) (t :: rest)
termination_by 16 * ts.length + 1
decreasing_by all_goals simp only [List.length_cons, Level.rank]; omega

/-- A word: the name of a call if a parenthesis follows, and else a reference. -/
def parseWord (ts : List Token) : Parsed ts.length Expr :=
  match ts with
  | [] => .keep (.error .unexpectedEnd) []
  | [t] => .skip (ofWord t.text t.position) t []
  | t :: next :: rest =>
    if next.kind = .leftParen then
      (parseCall t.text rest).widen (Nat.le_succ_of_le (Nat.le_succ _))
    else .skip (ofWord t.text t.position) t (next :: rest)
termination_by 16 * ts.length
decreasing_by
  simp only [List.length_cons]
  omega

/-- The arguments of a call up to its closing parenthesis. The name is looked up before them. -/
def parseCall (name : String) (ts : List Token) : Parsed ts.length Expr :=
  match Function.lookup? name with
  | none => .keep (.error (.unknownFunction name)) ts
  | some f =>
    match ts with
    | [] => parseArguments f [] []
    | t :: rest =>
      if t.kind = .rightParen then .skip (ofCall f []) t rest
      else parseArguments f [] (t :: rest)
termination_by 16 * ts.length + 13

/-- At least one more argument of a call that has some already. -/
def parseArguments (f : Function) (given : List Expr) (ts : List Token) : Parsed ts.length Expr :=
  (parseOperation .comparison ts).andThen fun e rest _ =>
    match rest with
    | [] => .keep (.error .unclosedCall) []
    | t :: after =>
      if t.kind = .rightParen then .skip (ofCall f (given ++ [e])) t after
      else if t.kind = .comma then (parseArguments f (given ++ [e]) after).widen (Nat.le_succ _)
      else .keep (.error (.missingSeparator t.text)) (t :: after)
termination_by 16 * ts.length + 12
decreasing_by
  · simp only [Level.rank]
    omega
  · simp only [List.length_cons] at *
    omega

end

end Expr

end Spreadsheet
