namespace Spreadsheet.Column

/-- The value of a capital as a digit: A is one and Z is twenty-six. -/
def letterValue (c : Char) : Nat := c.toNat - 64

def letterOf (n : Nat) : Char := Char.ofNat (64 + n)

/-- The number of a column in base twenty-six without a zero; A is the first column. -/
def number (letters : List Char) : Nat := letters.foldl (fun n c => 26 * n + letterValue c) 0

/-- The letters of a column; the column before A has none. -/
def letters (n : Nat) : List Char :=
  if n = 0 then [] else letters ((n - 1) / 26) ++ [letterOf ((n - 1) % 26 + 1)]
termination_by n
decreasing_by omega

end Spreadsheet.Column
