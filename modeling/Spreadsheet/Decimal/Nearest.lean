namespace Spreadsheet.Nearest

/-- A fraction of two to the power of `-places`, cut to an integer. A remainder makes it odd, so that
    a cut of two digits or more after the last one of a double does not look like a tie. -/
def cut (numerator denominator places : Nat) : Nat :=
  let scaled := numerator * Nat.pow 2 places
  let digits := scaled / denominator
  if scaled % denominator = 0 then digits else digits / 2 * 2 + 1

/-- The double nearest to a fraction; a tie goes to the even mantissa. The cut leaves at least 64
    binary digits of every fraction but zero. -/
def ofFraction (numerator denominator : Nat) : Float :=
  let places := 65 + denominator.log2
  Float.ofScientific (cut numerator denominator places * Nat.pow 5 places) true places

end Spreadsheet.Nearest
