import Spreadsheet.Formula.Parse

namespace Spreadsheet

/-- Some tokens and those of them that are still to be read. -/
structure Cursor where
  tokens : List Token
  rest : List Token

namespace Cursor

def start (tokens : List Token) : Cursor := ⟨tokens, tokens⟩

/-- How many tokens have been read. -/
def current (c : Cursor) : Nat := c.tokens.length - c.rest.length

def peek (c : Cursor) : Option Token := c.rest.head?

def read (c : Cursor) : Except Failure Token × Cursor :=
  match c.rest with
  | [] => (.error .unexpectedEnd, c)
  | t :: rest => (.ok t, { c with rest })

/-- Reads a token of one of some categories, and nothing if the next one is of another. -/
def readIf (categories : List Token.Category) (c : Cursor) : Option Token × Cursor :=
  match c.rest with
  | [] => (none, c)
  | t :: rest => if t.category ∈ categories then (some t, { c with rest }) else (none, c)

/-- Reads a phrase; a formula starts at the first token again. What a failure has read stays
    read. -/
def parse (phrase : Phrase) (c : Cursor) : Except Failure Expr × Cursor :=
  let parsed {n : Nat} (p : Parsed n Expr) := (p.outcome, { c with rest := p.rest })
  match phrase with
  | .formula => parsed (Expr.parseBody (Expr.dropEqualSign c.tokens))
  | .operation level => parsed (Expr.parseOperation level c.rest)
  | .signed => parsed (Expr.parseSigned c.rest)
  | .percent => parsed (Expr.parsePercent c.rest)
  | .primary => parsed (Expr.parsePrimary c.rest)
  | .word => parsed (Expr.parseWord c.rest)

/-- Reads the arguments of a call, after its name and the parenthesis that opens it. -/
def parseCall (name : String) (c : Cursor) : Except Failure Expr × Cursor :=
  let p := Expr.parseCall name c.rest
  (p.outcome, { c with rest := p.rest })

end Cursor

end Spreadsheet
