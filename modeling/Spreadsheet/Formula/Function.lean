import Spreadsheet.Number
import Spreadsheet.Text.Upper

namespace Spreadsheet

/-- How many arguments a function takes. Without a greatest number it takes any more. -/
structure Arity where
  least : Int
  most : Option Int
deriving DecidableEq

namespace Arity

def Admits (a : Arity) (count : Int) : Prop :=
  a.least ≤ count ∧ ∀ most ∈ a.most, count ≤ most

instance (a : Arity) (count : Int) : Decidable (a.Admits count) :=
  inferInstanceAs (Decidable (_ ∧ _))

/-- Fails for a number of arguments that the function called `name` does not take. -/
def check (a : Arity) (name : String) (count : Int) : Except Failure Unit :=
  if a.Admits count then .ok () else .error (.argumentCount name a.least a.most count)

end Arity

/-- The functions of the values of all their arguments. -/
inductive Aggregate where
  | sum
  | average
  | maximum
  | minimum
deriving DecidableEq

namespace Aggregate

/-- The values added from left to right to a whole zero. -/
def total (values : List Number) : Except Failure Number := values.foldlM Number.add (.whole 0)

/-- The first of the greatest values. -/
def greatest (first : Number) (others : List Number) : Number :=
  others.foldl (fun best x => if best.less x then x else best) first

/-- The first of the least values. -/
def least (first : Number) (others : List Number) : Number :=
  others.foldl (fun best x => if x.less best then x else best) first

def apply : Aggregate → List Number → Except Failure Number
  | sum, values => total values
  | average, [] => .error .emptyAverage
  | average, values => (total values).bind (·.divide (.whole values.length))
  | maximum, [] => .error .emptyMaximum
  | maximum, first :: others => .ok (greatest first others)
  | minimum, [] => .error .emptyMinimum
  | minimum, first :: others => .ok (least first others)

end Aggregate

/-- The functions of formulas. The conditional takes a condition, a value and perhaps another
    value, and needs only the one that the condition selects. -/
inductive Function where
  | aggregate (a : Aggregate)
  | conditional
deriving DecidableEq

namespace Function

def all : List Function :=
  [.aggregate .sum, .aggregate .average, .aggregate .maximum, .aggregate .minimum, .conditional]

def name : Function → String
  | aggregate .sum => "SUM"
  | aggregate .average => "AVERAGE"
  | aggregate .maximum => "MAX"
  | aggregate .minimum => "MIN"
  | conditional => "IF"

def arity : Function → Arity
  | aggregate _ => ⟨1, none⟩
  | conditional => ⟨2, some 3⟩

/-- A lazy function does not need the values of all its arguments. -/
def isLazy (f : Function) : Bool := f == conditional

/-- The function of exactly this name. -/
def named? (name : String) : Option Function := all.find? (·.name == name)

/-- The function of a name in any case. -/
def lookup? (name : String) : Option Function := named? (Text.upper name)

theorem name_of_named? {name : String} {f : Function} (h : named? name = some f) :
    f.name = name := by
  simpa using List.find?_some h

@[simp] theorem named?_name (f : Function) : named? f.name = some f := by
  cases f with
  | aggregate a => cases a <;> rfl
  | conditional => rfl

end Function

end Spreadsheet
