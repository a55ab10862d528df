import Spreadsheet.Decimal.Numeral
import Spreadsheet.Proofs.Text.Capital
import Spreadsheet.Proofs.Token.Spelling

namespace Spreadsheet

open Token

variable {m : Mantissa} {exponent ds : List Char}

theorem Text.all_isDecimalDigit (digits : ds.all Char.isDigit = true) :
    ds.all isDecimalDigit = true :=
  List.all_eq_true.mpr fun c member =>
    isDecimalDigit_of_isDigit (List.all_eq_true.mp digits c member)

theorem Token.IsExponent.head?_isDecimalDigit (h : IsExponent exponent) :
    exponent.head?.any Text.isDecimalDigit = false ∧ exponent.head? ≠ some '.' := by
  rcases h with rfl | ⟨mark, sign, ds, rfl, rfl | rfl, -⟩
  · exact ⟨rfl, nofun⟩
  · exact ⟨(by decide : Text.isDecimalDigit 'e' = false), nofun⟩
  · exact ⟨(by decide : Text.isDecimalDigit 'E' = false), nofun⟩

namespace Token.Mantissa

def digits (m : Mantissa) : List Char := m.whole ++ m.fraction.getD []

def places (m : Mantissa) : Nat := (m.fraction.getD []).length

theorem Writes.readSign (h : m.Writes exponent) :
    Numeral.readSign (m.chars ++ exponent) = (false, m.chars ++ exponent) := by
  obtain ⟨c, cs, head, digit⟩ := head?_chars h.whole h.digits exponent
  rw [head]
  unfold Numeral.readSign
  split
  · exact absurd digit (by simp_all)
  · exact absurd digit (by simp_all)
  · rfl

theorem hasDigits_eq (m : Mantissa) :
    m.hasDigits = ! (m.whole.isEmpty && (m.fraction.getD []).isEmpty) := by
  obtain ⟨whole, fraction⟩ := m
  cases whole <;> rcases fraction with _ | _ | _ <;> rfl

theorem read_chars (whole : m.whole.all Text.isDecimalDigit = true)
    (fraction : ∀ ds ∈ m.fraction, ds.all Text.isDecimalDigit = true)
    (stop : exponent.head?.any Text.isDecimalDigit = false) (point : exponent.head? ≠ some '.') :
    (m.chars ++ exponent).takeWhile Text.isDecimalDigit = m.whole ∧
      Numeral.readFraction ((m.chars ++ exponent).dropWhile Text.isDecimalDigit) =
        (m.fraction, exponent) := by
  obtain ⟨all, fraction?⟩ := m
  cases fraction? with
  | none =>
    simp only [chars, Text.takeWhile_run whole stop, Text.dropWhile_run whole stop, true_and]
    unfold Numeral.readFraction
    split
    · exact absurd rfl point
    · rfl
  | some ds =>
    have dot : ('.' :: ds ++ exponent).head?.any Text.isDecimalDigit = false := by
      change Text.isDecimalDigit '.' = false
      decide
    have after := fraction ds rfl
    simp only [chars, List.append_assoc, Text.takeWhile_run whole dot, Text.dropWhile_run whole dot,
      true_and]
    simp only [List.cons_append, Numeral.readFraction, Text.takeWhile_run after stop,
      Text.dropWhile_run after stop]

theorem read?_of_readSign {cs : List Char} {negative : Bool}
    (whole : m.whole.all Text.isDecimalDigit = true)
    (fraction : ∀ ds ∈ m.fraction, ds.all Text.isDecimalDigit = true)
    (digits : m.hasDigits = true) (stop : exponent.head?.any Text.isDecimalDigit = false)
    (point : exponent.head? ≠ some '.')
    (sign : Numeral.readSign cs = (negative, m.chars ++ exponent)) :
    Numeral.read? cs =
      (Numeral.readExponent? exponent).map fun power =>
        ⟨negative, Text.digitsValue m.digits, power - m.places⟩ := by
  obtain ⟨before, after⟩ := read_chars whole fraction stop point
  have some : (m.whole.isEmpty && (m.fraction.getD []).isEmpty) = false := by
    rwa [hasDigits_eq, Bool.not_eq_true'] at digits
  simp only [Numeral.read?, sign, before, after, some]
  rfl

theorem Writes.read?_of_readSign {cs : List Char} {negative : Bool} (h : m.Writes exponent)
    (sign : Numeral.readSign cs = (negative, m.chars ++ exponent)) :
    Numeral.read? cs =
      (Numeral.readExponent? exponent).map fun power =>
        ⟨negative, Text.digitsValue m.digits, power - m.places⟩ := by
  obtain ⟨stop, point⟩ := h.power.head?_isDecimalDigit
  exact Mantissa.read?_of_readSign (Text.all_isDecimalDigit h.whole)
    (fun ds member => Text.all_isDecimalDigit (h.fraction ds member)) h.digits stop point sign

theorem Writes.read? (h : m.Writes exponent) :
    Numeral.read? (m.chars ++ exponent) =
      (Numeral.readExponent? exponent).map fun power =>
        ⟨false, Text.digitsValue m.digits, power - m.places⟩ :=
  h.read?_of_readSign h.readSign

end Token.Mantissa

theorem Text.upperChars_digits (digits : ds.all Char.isDigit = true) : upperChars ds = ds :=
  upperChars_of_lt fun c member => by
    have code := isDigit_iff.mp (List.all_eq_true.mp digits c member)
    omega

theorem Token.Mantissa.upperChars_chars {m : Mantissa} (whole : m.whole.all Char.isDigit = true)
    (fraction : ∀ ds ∈ m.fraction, ds.all Char.isDigit = true) :
    Text.upperChars m.chars = m.chars := by
  refine Text.upperChars_of_lt fun c member => ?_
  rcases digit_of_mem_chars whole fraction member with digit | rfl
  · have code := Text.isDigit_iff.mp digit
    omega
  · decide

theorem Token.IsExponent.upperChars (h : IsExponent exponent) :
    IsExponent (Text.upperChars exponent) ∧
      Numeral.readExponent? (Text.upperChars exponent) = Numeral.readExponent? exponent := by
  rcases h with rfl | ⟨mark, sign, ds, rfl, letter, signs, some, digits⟩
  · exact ⟨.inl rfl, rfl⟩
  · have sign' : Text.upperChars sign = sign := by rcases signs with rfl | rfl | rfl <;> rfl
    have mark' : Text.upperChars [mark] = ['E'] := by rcases letter with rfl | rfl <;> rfl
    have upper : Text.upperChars (mark :: (sign ++ ds)) = 'E' :: (sign ++ ds) := by
      rw [← List.singleton_append, Text.upperChars_append, Text.upperChars_append, mark', sign',
        Text.upperChars_digits digits, List.singleton_append]
    rw [upper]
    refine ⟨.inr ⟨'E', sign, ds, rfl, .inr rfl, signs, some, digits⟩, ?_⟩
    rcases letter with rfl | rfl <;> rfl

theorem Token.Mantissa.Writes.upperChars (h : m.Writes exponent) :
    Text.upperChars (m.chars ++ exponent) = m.chars ++ Text.upperChars exponent ∧
      m.Writes (Text.upperChars exponent) ∧
      Numeral.read? (Text.upperChars (m.chars ++ exponent)) =
        Numeral.read? (m.chars ++ exponent) := by
  obtain ⟨power, value⟩ := h.power.upperChars
  have chars : Text.upperChars (m.chars ++ exponent) = m.chars ++ Text.upperChars exponent := by
    rw [Text.upperChars_append, upperChars_chars h.whole h.fraction]
  have writes : m.Writes (Text.upperChars exponent) := by
    refine ⟨h.whole, h.fraction, h.digits, power, fun point empty => ?_⟩
    have some := h.point point
    rcases h.power with rfl | ⟨mark, sign, ds, rfl, letter, -⟩
    · exact some rfl
    · rcases letter with rfl | rfl <;> cases empty
  exact ⟨chars, writes, by rw [chars, writes.read?, h.read?, value]⟩

end Spreadsheet
