import Spreadsheet.Proofs.Text.Run
import Spreadsheet.Text.Digit

namespace Spreadsheet.Text

theorem isAlpha_iff {c : Char} :
    c.isAlpha = true ↔ 65 ≤ c.toNat ∧ c.toNat ≤ 90 ∨ 97 ≤ c.toNat ∧ c.toNat ≤ 122 := by
  simp only [Char.isAlpha, Char.isUpper, Char.isLower, Bool.or_eq_true, Bool.and_eq_true,
    decide_eq_true_eq, ge_iff_le, UInt32.le_iff_toNat_le, Char.toNat_val]
  rfl

theorem isDigit_iff {c : Char} : c.isDigit = true ↔ 48 ≤ c.toNat ∧ c.toNat ≤ 57 :=
  Char.isDigit_iff_toNat

theorem isBlank_iff {c : Char} :
    isBlank c = true ↔ ∃ r ∈ blankRanges, r.1 ≤ c.toNat ∧ c.toNat ≤ r.2 :=
  within_iff blankRanges c

theorem isDecimalDigit_iff {c : Char} :
    isDecimalDigit c = true ↔ ∃ first ∈ digitZeros, first ≤ c.toNat ∧ c.toNat < first + 10 := by
  simp [isDecimalDigit, digitValue?]

theorem isBlank_code {c : Char} (h : isBlank c = true) : c.toNat ≤ 0x20 ∨ 0x7F ≤ c.toNat := by
  obtain ⟨r, member, low, high⟩ := isBlank_iff.mp h
  have ranges : ∀ r ∈ blankRanges, r.2 ≤ 0x20 ∨ 0x7F ≤ r.1 := by decide
  have code := ranges r member
  omega

theorem isDecimalDigit_of_isBlank {c : Char} (h : isBlank c = true) : isDecimalDigit c = false := by
  obtain ⟨r, member, low, high⟩ := isBlank_iff.mp h
  have apart : ∀ r ∈ blankRanges, ∀ first ∈ digitZeros, r.2 < first ∨ first + 10 ≤ r.1 := by
    decide +kernel
  rw [← Bool.not_eq_true, isDecimalDigit_iff]
  rintro ⟨first, known, least, most⟩
  have code := apart r member first known
  omega

theorem isDecimalDigit_code {c : Char} (h : isDecimalDigit c = true) :
    c.isDigit = true ∨ 0x7F ≤ c.toNat := by
  obtain ⟨first, known, least, most⟩ := isDecimalDigit_iff.mp h
  have zeros : ∀ first ∈ digitZeros, first = 0x30 ∨ 0x7F ≤ first := by decide
  rw [isDigit_iff]
  have code := zeros first known
  omega

theorem digitValue?_of_isDigit {c : Char} (h : c.isDigit = true) :
    digitValue? c = some (c.toNat - 48) := by
  have code := isDigit_iff.mp h
  have first : digitZeros.find? (fun first => first ≤ c.toNat && c.toNat < first + 10) =
      some 0x30 := by
    rw [digitZeros, List.find?_cons_of_pos]
    simp only [Bool.and_eq_true, decide_eq_true_eq]
    omega
  rw [digitValue?, first]
  rfl

theorem isDecimalDigit_of_isDigit {c : Char} (h : c.isDigit = true) : isDecimalDigit c = true := by
  rw [isDecimalDigit, digitValue?_of_isDigit h]
  rfl

end Spreadsheet.Text
