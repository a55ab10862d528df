import Spreadsheet.Address.Text
import Spreadsheet.Decimal.Shortest

namespace Spreadsheet

/-- The most digits that a whole number is read or written with. -/
def digitLimit : Nat := 4300

/-- A whole number that has few enough digits to be written. -/
def IsWritable (n : Int) : Prop := n.natAbs < Nat.pow 10 digitLimit

instance (n : Int) : Decidable (IsWritable n) := Nat.decLt _ _

/-- Everything that can go wrong, by cause. -/
inductive Failure where
  /-- Not the shape of an address: letters, then digits. -/
  | malformedAddress (text : String)
  /-- Rows count from one. -/
  | rowZero (text : String)
  /-- Not one, two or three letters. -/
  | invalidLetters (letters : String)
  /-- Letters of a column beyond the last one. -/
  | lettersBeyondGrid (letters : String)
  | columnBeyondGrid (index : Int)
  /-- Two names of one table mean the same cell. -/
  | repeatedCell (name : CellName)
  /-- A row number with more digits than can be read. -/
  | rowTooLong (digits : Nat)
  /-- A whole number with more digits than can be written. -/
  | unwritable
  | unexpectedCharacter (c : Char) (position : Nat)
  | secondPoint (position : Nat)
  | missingExponent (position : Nat)
  | lonePoint (position : Nat)
  | trailingPoint (position : Nat)
  | emptyFormula
  | unexpectedToken (text : String) (position : Nat)
  | unexpectedEnd
  | unclosedGroup
  | unclosedCall
  /-- A token between two arguments that does not separate them. -/
  | missingSeparator (text : String)
  | invalidReference (text : String) (position : Nat)
  /-- A number in a formula that no finite double is near to. -/
  | numberOverflow (text : String) (position : Nat)
  | unknownFunction (name : String)
  | argumentCount (name : String) (least : Int) (most : Option Int) (count : Int)
  /-- A result that is no finite double. -/
  | overflow
  /-- A negative base with a fractional exponent. -/
  | notReal
  | divisionByZero
  | zeroToNegativePower
  | unknownOperator (symbol : String)
  /-- A call of a name that is not spelled as its function. -/
  | unregisteredName (name : String)
  /-- A whole number that no finite double is near to. -/
  | wholeTooLarge
  /-- A quotient of whole numbers that no finite double is near to. -/
  | quotientTooLarge
  | emptyAverage
  | emptyMaximum
  | emptyMinimum
  /-- A conditional without a value, or with more than two. -/
  | choiceCount (count : Nat)
  /-- A reference without a value. -/
  | unresolved (address : Address)
  /-- A cell that needs its own value; the cycle starts and ends with it. -/
  | circular (cycle : List Coordinate)
  | tooDeep (limit : Int) (cell : Coordinate)
  /-- A cell with neither a formula nor a value, where a text is asked for. -/
  | missingText
  | emptyStack
  | notOnStack
  | notFinite (value : Float)
  | invalidPrecision
  /-- A precision that no signed word of 64 bits holds. -/
  | precisionTooLarge
  /-- A unit of rounding that is too fine. -/
  | unitTooFine
deriving DecidableEq

namespace Failure

/-- What a failure is about. -/
inductive Kind where
  | address
  | token
  | grammar
  | expression
  | function
  | division
  | cycle
  | depth
  /-- A quotient of whole numbers by zero. -/
  | quotient
  /-- An exact number that is too large for a machine word or a double. -/
  | size
  /-- A number or list that is outside the range of its purpose. -/
  | range
  | unit
  | arguments
  | missingName
  | missingText
  | missingEntry
  | missingItem
deriving DecidableEq

def kind : Failure → Kind
  | malformedAddress _ | rowZero _ | invalidLetters _ | lettersBeyondGrid _ | columnBeyondGrid _
  | repeatedCell _ => .address
  | rowTooLong _ | unwritable | invalidPrecision | emptyMaximum | emptyMinimum => .range
  | unitTooFine => .unit
  | emptyAverage => .quotient
  | wholeTooLarge | quotientTooLarge | precisionTooLarge => .size
  | choiceCount _ => .arguments
  | unexpectedCharacter _ _ | secondPoint _ | missingExponent _ | lonePoint _
  | trailingPoint _ => .token
  | emptyFormula | unexpectedToken _ _ | unexpectedEnd | unclosedGroup | unclosedCall
  | missingSeparator _ | invalidReference _ _ => .grammar
  | numberOverflow _ _ | argumentCount _ _ _ _ | overflow | notReal | unknownOperator _
  | notFinite _ => .expression
  | unknownFunction _ => .function
  | divisionByZero | zeroToNegativePower => .division
  | circular _ => .cycle
  | tooDeep _ _ => .depth
  | unregisteredName _ | unresolved _ => .missingName
  | missingText => .missingText
  | emptyStack => .missingEntry
  | notOnStack => .missingItem

/-- The value that a sheet shows in the failing cell. -/
def Kind.code? : Kind → Option String
  | address => some "#REF!"
  | token | grammar | expression => some "#VALUE!"
  | function => some "#NAME?"
  | division => some "#DIV/0!"
  | cycle | depth => some "#CYCLE!"
  | quotient | size | range | unit | arguments | missingName | missingText
  | missingEntry | missingItem => none

/-- How many arguments a function takes, in words. -/
def expectedCount (least : Int) : Option Int → String
  | none => "at least " ++ toString least
  | some most =>
    if most = least then toString least else toString least ++ " to " ++ toString most

/-- What a conditional of this many arguments lacks, or what it takes. -/
def choiceText (count : Nat) : String :=
  if count = 0 then
    "IF() missing 2 required positional arguments: 'condition' and 'true_value'"
  else if count = 1 then "IF() missing 1 required positional argument: 'true_value'"
  else s!"IF() takes from 2 to 3 positional arguments but {count} were given"

def cycleText (cycle : List Coordinate) : String :=
  " -> ".intercalate (cycle.map Coordinate.text)

def message : Failure → String
  | malformedAddress text => "Invalid cell address: " ++ Text.quote text
  | rowZero text => "Row numbers start at 1: " ++ Text.quote text
  | invalidLetters letters => "Invalid column letters: " ++ Text.quote letters
  | lettersBeyondGrid letters => "Column " ++ Text.quote letters ++ " is out of range"
  | columnBeyondGrid index => s!"Column index {index} is out of range"
  | repeatedCell name => "Cell " ++ name.shown ++ " appears more than once in the table"
  | rowTooLong digits =>
    s!"Exceeds the limit (4300 digits) for integer string conversion: value has {digits} digits; " ++
      "use sys.set_int_max_str_digits() to increase the limit"
  | unwritable =>
    "Exceeds the limit (4300 digits) for integer string conversion; " ++
      "use sys.set_int_max_str_digits() to increase the limit"
  | unexpectedCharacter c position =>
    "Unexpected character: " ++ String.singleton c ++ s!" at position {position}"
  | secondPoint position =>
    s!"Invalid number format at position {position}: multiple decimal points"
  | missingExponent position =>
    s!"Invalid scientific notation at position {position}: missing exponent"
  | lonePoint position => s!"Invalid number format at position {position}: lone decimal point"
  | trailingPoint position =>
    s!"Invalid number format at position {position}: trailing decimal point"
  | emptyFormula => "Empty formula"
  | unexpectedToken text position =>
    "Unexpected token: " ++ Text.quote text ++ s!" at position {position}"
  | unexpectedEnd => "Unexpected end of formula"
  | unclosedGroup => "Expected closing parenthesis ')'"
  | unclosedCall => "Unexpected end of formula in function call"
  | missingSeparator text => "Expected ',' or ')' in function call, got " ++ Text.quote text
  | invalidReference text position => s!"Invalid cell reference: {text} at position {position}"
  | numberOverflow text position => s!"Numeric overflow: {text} at position {position}"
  | unknownFunction name => s!"Unknown function: {name}"
  | argumentCount name least most count =>
    name ++ " expects " ++ expectedCount least most ++ s!" argument(s), got {count}"
  | overflow => "Numeric overflow"
  | notReal => "Result is not a real number"
  | divisionByZero => "Division by zero"
  | zeroToNegativePower => "Zero raised to a negative power"
  | unknownOperator symbol => s!"Unknown operator: {symbol}"
  | unregisteredName name => Text.quote name
  | wholeTooLarge => "int too large to convert to float"
  | quotientTooLarge => "integer division result too large for a float"
  | emptyAverage => "division by zero"
  | emptyMaximum => "max() arg is an empty sequence"
  | emptyMinimum => "min() arg is an empty sequence"
  | choiceCount count => choiceText count
  | unresolved address => "Unresolved reference: " ++ address.text
  | circular cycle => "Circular reference detected: " ++ cycleText cycle
  | tooDeep limit cell => s!"More than {limit} nested formulas while resolving " ++ cell.text
  | missingText => "'NoneType' object has no attribute 'startswith'"
  | emptyStack => "pop from empty list"
  | notOnStack => ""
  | notFinite value => "Cannot display non-finite value: " ++ Shortest.text value
  | invalidPrecision => "valid range for prec is [1, MAX_PREC]"
  | precisionTooLarge => "Python int too large to convert to C ssize_t"
  | unitTooFine => "[<class 'decimal.InvalidOperation'>]"

/-- A failure whose message names a whole number. If that number cannot be written, neither can the
    message, which is a failure of its own. -/
def naming (n : Int) (f : Failure) : Failure := if IsWritable n then f else .unwritable

end Failure

end Spreadsheet
