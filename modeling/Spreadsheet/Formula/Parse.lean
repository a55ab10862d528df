import Spreadsheet.Formula.Eval
import Spreadsheet.Formula.Parser

namespace Spreadsheet

namespace Token

/-- The tokens of a text without the blanks at its ends, and the text left after a fault. -/
def lexText (text : String) : Scan (List Token) := lex 0 (Text.strip text.toList)

/-- The tokens of a text, each at its position in the text without the blanks at its ends. -/
def tokenize (text : String) : Except Failure (List Token) := (lexText text).outcome

end Token

namespace Expr

/-- The equal sign that may start a formula. -/
def dropEqualSign : List Token → List Token
  | [] => []
  | t :: rest => if t.kind = .operator .equal then rest else t :: rest

/-- Nothing may follow the expression of a formula. -/
def endFormula (e : Expr) : (ts : List Token) → Parsed ts.length Expr
  | [] => .keep (.ok e) []
  | t :: rest => .keep (.error (.unexpectedToken t.text t.position)) (t :: rest)

/-- The expression that some tokens without an equal sign write. -/
def parseBody (ts : List Token) : Parsed ts.length Expr :=
  match ts with
  | [] => .keep (.error .emptyFormula) []
  | t :: rest => (parseOperation .comparison (t :: rest)).andThen fun e after _ => e.endFormula after

/-- The expression that the tokens of a formula write, with or without its equal sign. -/
def parseTokens (ts : List Token) : Except Failure Expr := (parseBody (dropEqualSign ts)).outcome

/-- The expression that a formula's text writes. -/
def parse (text : String) : Except Failure Expr := (Token.tokenize text).bind parseTokens

/-- The value of an expression's text. -/
def evalText (value : Address → Except Failure Number) (text : String) : Reading Number :=
  match parse text with
  | .error e => .ofOutcome (.error e)
  | .ok e => e.eval value

end Expr

end Spreadsheet
