namespace Spreadsheet

/-- The operators of formulas, as they are written. -/
inductive Operator where
  | plus
  | minus
  | times
  | divide
  | power
  | percent
  | equal
  | notEqual
  | less
  | greater
  | lessEqual
  | greaterEqual
deriving DecidableEq

def Operator.text : Operator → String
  | plus => "+"
  | minus => "-"
  | times => "*"
  | divide => "/"
  | power => "^"
  | percent => "%"
  | equal => "="
  | notEqual => "<>"
  | less => "<"
  | greater => ">"
  | lessEqual => "<="
  | greaterEqual => ">="

namespace Token

inductive Kind where
  | identifier (name : String)
  | number (text : String)
  | boolean (value : Bool)
  | operator (op : Operator)
  | leftParen
  | rightParen
  | comma
deriving DecidableEq

/-- The kind of a token without its text. -/
inductive Category where
  | identifier
  | number
  | boolean
  | operator
  | leftParen
  | rightParen
  | comma
deriving DecidableEq

def Kind.category : Kind → Category
  | .identifier _ => .identifier
  | .number _ => .number
  | .boolean _ => .boolean
  | .operator _ => .operator
  | .leftParen => .leftParen
  | .rightParen => .rightParen
  | .comma => .comma

/-- A token's text; the two truth values are in capitals. -/
def Kind.text : Kind → String
  | .identifier name => name
  | .number text => text
  | .boolean value => if value then "TRUE" else "FALSE"
  | .operator op => op.text
  | .leftParen => "("
  | .rightParen => ")"
  | .comma => ","

end Token

/-- A token and where it starts in its text. -/
structure Token where
  kind : Token.Kind
  position : Nat
deriving DecidableEq

namespace Token

def text (t : Token) : String := t.kind.text

def category (t : Token) : Category := t.kind.category

end Token

end Spreadsheet
