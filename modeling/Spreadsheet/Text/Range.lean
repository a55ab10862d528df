namespace Spreadsheet.Text

/-- Membership of a character in a list of inclusive code point ranges. -/
def within (ranges : List (Nat × Nat)) (c : Char) : Bool :=
  ranges.any fun (low, high) => low ≤ c.toNat && c.toNat ≤ high

theorem within_iff (ranges : List (Nat × Nat)) (c : Char) :
    within ranges c = true ↔ ∃ r ∈ ranges, r.1 ≤ c.toNat ∧ c.toNat ≤ r.2 := by
  simp [within, List.any_eq_true]

end Spreadsheet.Text
