import Mathlib.Data.List.Infix
import Spreadsheet.Address.Notation

namespace Spreadsheet

/-- An outcome is a success, or a failure of some kind. -/
def Fails {α : Type} (P : Failure → Prop) (x : Except Failure α) : Prop := ∀ f, x = .error f → P f

namespace Fails

variable {α β : Type} {P Q : Failure → Prop} {x : Except Failure α}

theorem ok (x : α) : Fails P (.ok x : Except Failure α) := by
  intro f h
  cases h

theorem error {f : Failure} (h : P f) : Fails P (.error f : Except Failure α) := by
  intro g same
  cases same
  exact h

theorem mono (h : Fails P x) (weaker : ∀ f, P f → Q f) : Fails Q x :=
  fun f same => weaker f (h f same)

theorem bind {g : α → Except Failure β} (first : Fails P x) (next : ∀ a, Fails P (g a)) :
    Fails P (x.bind g) := by
  intro f h
  cases x with
  | error e =>
    cases h
    exact first _ rfl
  | ok a => exact next a f h

theorem map (first : Fails P x) (g : α → β) : Fails P (x.map g) := by
  intro f h
  cases x with
  | error e =>
    cases h
    exact first _ rfl
  | ok a => cases h

end Fails

namespace Failure

variable {f : Failure} {text : String}

/-- A failure of a text or of a calculation, and not of how cells depend on each other, nor of the
    display of a number. -/
def IsLocal (f : Failure) : Prop :=
  match f with
  | circular _ | tooDeep _ _ | unwritable | notFinite _ => False
  | _ => True

theorem not_isLocal_circular (cycle : List Coordinate) : ¬ (circular cycle).IsLocal := id

theorem not_isWritable_neg_pow : ¬ IsWritable (-(Nat.pow 10 digitLimit : Nat)) := by
  unfold IsWritable
  rw [Int.natAbs_neg, Int.natAbs_natCast]
  exact Nat.lt_irrefl _

theorem naming_of_isWritable {n : Int} (writable : IsWritable n) : naming n f = f :=
  if_pos writable

theorem naming_of_not_isWritable {n : Int} (long : ¬ IsWritable n) : naming n f = .unwritable :=
  if_neg long

theorem naming_eq_or (n : Int) (f : Failure) :
    naming n f = f ∨ ¬ IsWritable n ∧ naming n f = .unwritable := by
  by_cases writable : IsWritable n
  · exact .inl (naming_of_isWritable writable)
  · exact .inr ⟨writable, naming_of_not_isWritable writable⟩

/-- Not the failure to display a number that is not finite. -/
def KeepsFinite (f : Failure) : Prop := ∀ x, f ≠ notFinite x

theorem IsLocal.keepsFinite (h : f.IsLocal) : f.KeepsFinite := by
  rintro x rfl
  exact h

theorem KeepsFinite.naming (h : f.KeepsFinite) (n : Int) : (naming n f).KeepsFinite := by
  rcases naming_eq_or n f with same | ⟨-, same⟩
  · rw [same]
    exact h
  · rw [same]
    exact nofun

theorem eq_of_naming {n : Int} {g : Failure} (h : naming n f = g) (other : g ≠ .unwritable) :
    f = g := by
  rcases naming_eq_or n f with same | ⟨-, same⟩
  · exact same.symm.trans h
  · exact absurd (h.symm.trans same) other

/-- A failure that a sheet shows in the failing cell. -/
def HasCode (f : Failure) : Prop := f.kind.code?.isSome = true

/-- A failure of a formula's text: of its characters, its tokens, or the names, numbers and calls
    among them. -/
def IsTextual (f : Failure) : Prop :=
  match f with
  | notFinite _ => False
  | f =>
    match f.kind with
    | .token | .grammar | .expression | .function => True
    | _ => False

theorem IsTextual.isLocal (h : f.IsTextual) : f.IsLocal := by
  cases f with
  | circular | tooDeep | unwritable | notFinite => exact h.elim
  | _ => trivial

theorem IsTextual.hasCode (h : f.IsTextual) : f.HasCode := by
  cases f <;> first | rfl | exact h.elim

/-- A division by zero, or a number that is too large or not real. -/
def IsArithmetic : Failure → Prop
  | divisionByZero | zeroToNegativePower | overflow | notReal => True
  | _ => False

theorem IsArithmetic.hasCode (h : f.IsArithmetic) : f.HasCode := by
  cases f with
  | divisionByZero | zeroToNegativePower | overflow | notReal => rfl
  | _ => exact h.elim

theorem IsArithmetic.kind_message (h : f.IsArithmetic) :
    f.kind = .division ∨ f.kind = .expression ∧
      (f.message = "Numeric overflow" ∨ f.message = "Result is not a real number") := by
  cases f with
  | divisionByZero | zeroToNegativePower => exact .inl rfl
  | overflow => exact .inr ⟨rfl, .inl rfl⟩
  | notReal => exact .inr ⟨rfl, .inr rfl⟩
  | _ => exact h.elim

/-- The failure of a row number with more digits than can be read, which stands in a text. -/
def OfLongRow (text : String) (f : Failure) : Prop :=
  ∃ digits, digits <:+: text.toList ∧ digits.all Char.isDigit = true ∧
    digitLimit < digits.length ∧ f = .rowTooLong digits.length

theorem OfLongRow.isLocal (h : f.OfLongRow text) : f.IsLocal := by
  obtain ⟨digits, -, -, -, rfl⟩ := h
  trivial

end Failure

end Spreadsheet
