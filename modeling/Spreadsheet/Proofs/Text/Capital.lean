import Spreadsheet.Proofs.Text.Class
import Spreadsheet.Text.Upper

namespace Spreadsheet.Text

variable {c : Char} {cs ds : List Char}

theorem isLower_iff : c.isLower = true ↔ 97 ≤ c.toNat ∧ c.toNat ≤ 122 := by
  simp only [Char.isLower, Bool.and_eq_true, decide_eq_true_eq, ge_iff_le,
    UInt32.le_iff_toNat_le, Char.toNat_val]
  rfl

theorem toNat_toUpper_lt (low : c.toNat < 0xB5) : c.toUpper.toNat < 0xB5 := by
  by_cases small : c.isLower = true
  · have code := isLower_iff.mp small
    rw [Char.toUpper_eq_of_isLower small, Char.toNat_ofNat, if_pos (by unfold Nat.isValidChar; omega)]
    omega
  · rwa [Char.toUpper_eq_of_not_isLower small]

theorem upperChar_of_not_isLower (low : c.toNat < 0xB5) (other : ¬ c.isLower = true) :
    upperChar c = [c] := by
  rw [isLower_iff] at other
  have runs : caseRuns.find? (·.covers c.toNat) = none := by
    have first : ∀ run ∈ caseRuns, (97 ≤ run.first ∧ run.last ≤ 122) ∨ 0xB5 ≤ run.first := by
      decide +kernel
    refine List.find?_eq_none.mpr fun run member covers => ?_
    have bounds := first run member
    simp only [CaseRun.covers, Bool.and_eq_true, decide_eq_true_eq] at covers
    omega
  have sequences : caseSequences.find? (·.1 == c.toNat) = none := by
    have code : ∀ entry ∈ caseSequences, 0xB5 ≤ entry.1 := by decide +kernel
    refine List.find?_eq_none.mpr fun entry member same => ?_
    have le := code entry member
    simp only [beq_iff_eq] at same
    omega
  rw [upperChar, runs, sequences]

theorem upperChar_eq_toUpper (low : c.toNat < 0xB5) : upperChar c = [c.toUpper] := by
  by_cases small : c.isLower = true
  · have code := isLower_iff.mp small
    have run : caseRuns.find? (·.covers c.toNat) = some ⟨0x61, 0x7A, 1, 0x41⟩ := by
      rw [caseRuns, List.find?_cons_of_pos]
      simpa only [CaseRun.covers, Nat.mod_one, BEq.rfl, Bool.and_true, Bool.and_eq_true,
        decide_eq_true_eq] using code
    have same : 0x41 + (c.toNat - 0x61) = c.toNat - 32 := by omega
    rw [upperChar, run, Char.toUpper_eq_of_isLower small, ← same]
    rfl
  · rw [upperChar_of_not_isLower low small, Char.toUpper_eq_of_not_isLower small]

theorem upperChars_eq_map (low : ∀ c ∈ cs, c.toNat < 0xB5) :
    upperChars cs = cs.map Char.toUpper := by
  rw [upperChars, List.map_eq_flatMap]
  exact List.flatMap_congr fun c member => upperChar_eq_toUpper (low c member)

theorem upperChar_of_lt (h : c.toNat < 97) : upperChar c = [c] :=
  upperChar_of_not_isLower (by omega) (by rw [isLower_iff]; omega)

theorem upperChars_of_lt (h : ∀ c ∈ cs, c.toNat < 97) : upperChars cs = cs := by
  have same : ∀ c ∈ cs, c.toUpper = id c := by
    intro c member
    have code := h c member
    exact Char.toUpper_eq_of_not_isLower (by rw [isLower_iff]; omega)
  rw [upperChars_eq_map fun c member => (h c member).trans (by decide),
    List.map_congr_left same, List.map_id]

theorem length_upperChars_of_isAlpha (h : cs.all Char.isAlpha = true) :
    (upperChars cs).length = cs.length := by
  have low : ∀ c ∈ cs, c.toNat < 0xB5 := by
    intro c member
    have code := isAlpha_iff.mp (List.all_eq_true.mp h c member)
    omega
  rw [upperChars_eq_map low, List.length_map]

theorem upperChars_append (cs ds : List Char) :
    upperChars (cs ++ ds) = upperChars cs ++ upperChars ds := List.flatMap_append

theorem upperChars_upperChars (low : ∀ c ∈ cs, c.toNat < 0xB5) :
    upperChars (upperChars cs) = upperChars cs := by
  rw [upperChars_eq_map low, upperChars_eq_map, List.map_map]
  · simp only [Function.comp_def, Char.toUpper_toUpper_eq_toUpper]
  · intro c member
    obtain ⟨d, inside, rfl⟩ := List.mem_map.mp member
    exact toNat_toUpper_lt (low d inside)

end Spreadsheet.Text
