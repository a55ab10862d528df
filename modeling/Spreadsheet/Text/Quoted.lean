import Spreadsheet.Text.Printable

namespace Spreadsheet.Text

def apostrophe : Char := Char.ofNat 0x27

def doubleQuote : Char := Char.ofNat 0x22

/-- A text is quoted in apostrophes, unless it holds an apostrophe and no double quote. -/
def quoteMark (cs : List Char) : Char :=
  if cs.contains apostrophe && ! cs.contains doubleQuote then doubleQuote else apostrophe

/-- The hexadecimal digits of a code point, padded with zeros. -/
def hexDigits (width code : Nat) : List Char := (Nat.toDigits 16 code).leftpad width '0'

/-- An unprintable character as an escape of two, four or eight hexadecimal digits. -/
def escapeCode (code : Nat) : List Char :=
  if code < 0x100 then '\\' :: 'x' :: hexDigits 2 code
  else if code < 0x10000 then '\\' :: 'u' :: hexDigits 4 code
  else '\\' :: 'U' :: hexDigits 8 code

def escapeChar (mark c : Char) : List Char :=
  if c == mark || c == '\\' then ['\\', c]
  else if c == '\n' then ['\\', 'n']
  else if c == '\r' then ['\\', 'r']
  else if c == '\t' then ['\\', 't']
  else if isPrintable c then [c]
  else escapeCode c.toNat

def quoteChars (cs : List Char) : List Char :=
  let mark := quoteMark cs
  mark :: cs.flatMap (escapeChar mark) ++ [mark]

/-- A text in quotes, as messages show it. -/
def quote (text : String) : String := String.ofList (quoteChars text.toList)

end Spreadsheet.Text
