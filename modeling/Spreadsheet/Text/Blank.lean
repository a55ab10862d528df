import Spreadsheet.Text.Range

namespace Spreadsheet.Text

/-- White space: the characters of Unicode's bidirectional types B, S and WS and category Zs. -/
def blankRanges : List (Nat × Nat) :=
  [(0x9, 0xD), (0x1C, 0x20), (0x85, 0x85), (0xA0, 0xA0), (0x1680, 0x1680), (0x2000, 0x200A),
   (0x2028, 0x2029), (0x202F, 0x202F), (0x205F, 0x205F), (0x3000, 0x3000)]

def isBlank (c : Char) : Bool := within blankRanges c

def dropBlanks (cs : List Char) : List Char := cs.dropWhile isBlank

/-- A text without the blanks at its two ends. -/
def strip (cs : List Char) : List Char := (dropBlanks (dropBlanks cs).reverse).reverse

/-- A text without any blank. -/
def removeBlanks (cs : List Char) : List Char := cs.filter (! isBlank ·)

end Spreadsheet.Text
