import Spreadsheet.Grading
import Spreadsheet.Proofs.Decimal.Sum

namespace Spreadsheet

open Double

variable {n done total k : Nat}

theorem Dyadic.floor_eq {d : Dyadic} (least : (k : ℚ) ≤ d.size) (less : d.size < k + 1) :
    d.floor = k := by
  have share : (d.numerator : ℚ) / d.denominator = d.size := d.numerator_div_denominator
  rw [Dyadic.floor, ← Nat.floor_div_eq_div (K := ℚ), share]
  exact (Nat.floor_eq_iff d.size_nonneg).mpr ⟨least, less⟩

namespace Grading

/-- The least distance of a fraction with a denominator of at most `2 ^ 40` from a half above it. -/
def margin : ℚ := 2 ^ (-41 : ℤ)

theorem margin_pos : 0 < margin := zpow_pos (by norm_num) _

theorem representable_sub_half (small : k ≤ 100) : Representable ((k : ℚ) - 1 / 2) := by
  refine ⟨2 * k - 1, -1, abs_lt.mpr ⟨by omega, by omega⟩, by decide, by decide, ?_⟩
  push_cast
  ring

theorem representable_sub_margin {j : Nat} (most : j ≤ 202) :
    Representable ((j : ℚ) / 2 - margin) := by
  refine ⟨j * 2 ^ 40 - 1, -41, abs_lt.mpr ⟨by omega, by omega⟩, by decide, by decide, ?_⟩
  rw [margin]
  push_cast
  ring

/-- A fraction lies at least half a part of its denominator below the half above its rounding. -/
theorem fraction_bounds (some : 0 < total) (small : total ≤ 2 ^ 40)
    (rounded : Fixed.roundHalfUp n total = k) :
    (k : ℚ) - 1 / 2 ≤ n / total ∧ (n : ℚ) / total ≤ (2 * k + 1 : Nat) / 2 - margin := by
  have positive : (0 : ℚ) < total := by exact_mod_cast some
  have low : 2 * total * k ≤ 2 * n + total := rounded ▸ Nat.mul_div_le _ _
  have high : 2 * n + total + 1 ≤ 2 * total * (k + 1) :=
    rounded ▸ Nat.lt_mul_div_succ _ (by omega)
  have parts : margin * total ≤ 1 / 2 := by
    have bound : (total : ℚ) ≤ 2 ^ 40 := by exact_mod_cast small
    calc margin * total ≤ margin * 2 ^ 40 := mul_le_mul_of_nonneg_left bound margin_pos.le
      _ = 1 / 2 := by norm_num [margin]
  have low : (2 * total * k : ℚ) ≤ 2 * n + total := by exact_mod_cast low
  have high : (2 * n + total + 1 : ℚ) ≤ 2 * total * (k + 1) := by exact_mod_cast high
  rw [le_div_iff₀ positive, div_le_iff₀ positive]
  push_cast
  constructor <;> linarith

theorem fields_half :
    (0.5 : Float).isFinite = true ∧ (Dyadic.ofFloat 0.5).negative = false ∧
      (Dyadic.ofFloat 0.5).size = 1 / 2 := by
  have fields : Dyadic.ofFloat 0.5 = ⟨false, 2 ^ 52, -53⟩ := by decide
  refine ⟨by decide, by rw [fields], ?_⟩
  rw [fields, Dyadic.size]
  norm_num

theorem roundHalfUp_le_hundred (some : 0 < total) (part : done ≤ total) :
    Fixed.roundHalfUp (done * 100) total ≤ 100 := by
  rw [Fixed.roundHalfUp, ← Nat.lt_succ_iff, Nat.div_lt_iff_lt_mul (by omega)]
  omega

/-- A percentage is rounded as if it were exact: neither the rounding of the quotient nor that of
    the sum reaches the next integer. -/
theorem percentage_eq (some : 0 < total) (small : total ≤ 2 ^ 40) (part : done ≤ total) :
    percentage done total = Fixed.roundHalfUp (done * 100) total := by
  have most := roundHalfUp_le_hundred some part
  generalize rounded : Fixed.roundHalfUp (done * 100) total = k at most
  obtain ⟨low, high⟩ := fraction_bounds some small rounded
  obtain ⟨finite, sign, size⟩ := (rounds_natCast (done * 100)).size_eq
    (representable_natCast (by omega))
  obtain ⟨finite', sign', size'⟩ := (rounds_natCast total).size_eq
    (representable_natCast (by omega))
  have positive : (total : ℚ) ≠ 0 := by exact_mod_cast some.ne'
  have quotient := rounds_div finite finite' (size' ▸ positive)
  rw [sign, sign', size, size'] at quotient
  obtain ⟨finite, sign, low, high⟩ := quotient.between (representable_sub_half most)
    (representable_sub_margin (by omega)) low high
  obtain ⟨finite', sign', half⟩ := fields_half
  have sum := rounds_add finite finite' sign sign'
  rw [half] at sum
  have next : (2 * k + 1 : Nat) / 2 - margin + 1 / 2 = (2 * k + 2 : Nat) / 2 - margin := by
    push_cast
    ring
  obtain ⟨-, -, low, high⟩ := sum.between (representable_natCast (n := k) (by omega))
    (representable_sub_margin (j := 2 * k + 2) (by omega)) (by linarith) (by linarith)
  have below := margin_pos
  push_cast at high
  exact Dyadic.floor_eq low (by linarith)

variable {completed completed' : List String} {key : AnswerKey}

theorem doneCount_mono (names : completed.map Text.upper ⊆ completed'.map Text.upper) :
    doneCount completed key ≤ doneCount completed' key := by
  refine List.countP_mono_left fun entry _ done => ?_
  rw [List.contains_iff_mem] at done ⊢
  exact names done

theorem doneCount_eq_length_filter (completed : List String) (key : AnswerKey) :
    doneCount completed key =
      (key.filter fun named => ∃ cell ∈ completed, Text.upper cell = Text.upper named.1).length := by
  rw [doneCount, List.countP_eq_length_filter]
  congr 2
  funext named
  rw [Bool.eq_iff_iff, List.contains_iff_mem, List.mem_map, decide_eq_true_eq]

theorem completion_eq (some : key ≠ []) (small : key.length ≤ 2 ^ 40) (completed : List String) :
    completion completed key = Fixed.roundHalfUp (doneCount completed key * 100) key.length := by
  rw [completion, if_neg (by rwa [List.isEmpty_iff])]
  exact percentage_eq (List.length_pos_iff.mpr some) small List.countP_le_length

/-- The completion of a key is the exact percentage of its completed cells, rounded half up. It does
    not go down with more completed cells, and their order, case and repetition do not matter. -/
theorem completion_rounds (completed : List String) (key : AnswerKey) (some : key ≠ [])
    (small : key.length ≤ 2 ^ 40) :
    let done := (key.filter fun named =>
      ∃ cell ∈ completed, Text.upper cell = Text.upper named.1).length
    completion completed key = (200 * done + key.length) / (2 * key.length) ∧
      completion completed key ≤ 100 ∧
      (∀ completed', completed.map Text.upper ⊆ completed'.map Text.upper →
        completion completed key ≤ completion completed' key) ∧
      ∀ completed', (∀ name, name ∈ completed.map Text.upper ↔ name ∈ completed'.map Text.upper) →
        completion completed key = completion completed' key := by
  intro done
  have rounded := completion_eq some small
  have mono {names names' : List String} (among : names.map Text.upper ⊆ names'.map Text.upper) :
      completion names key ≤ completion names' key := by
    rw [rounded, rounded]
    have more : doneCount names key ≤ doneCount names' key := doneCount_mono among
    exact Nat.div_le_div_right (by omega)
  refine ⟨?_, ?_, fun _ => mono, fun _ same => ?_⟩
  · have count : doneCount completed key = done := doneCount_eq_length_filter completed key
    rw [rounded, Fixed.roundHalfUp, count]
    congr 2
    omega
  · rw [rounded]
    exact roundHalfUp_le_hundred (List.length_pos_iff.mpr some) List.countP_le_length
  · exact le_antisymm (mono fun name => (same name).mp) (mono fun name => (same name).mpr)

/-- One cell of eight is half a percent above twelve. -/
theorem completion_rounds_of_eighth :
    let key : AnswerKey :=
      ["B1", "B2", "B3", "B4", "B5", "B6", "B7", "b8"].map fun cell => (cell, { accepted := [] })
    key ≠ [] ∧ key.length ≤ 2 ^ 40 ∧ completion ["b1", "C1", "B1"] key = 13 ∧
      completion ["b1", "C1", "B1"] key ≤ completion ["C1", "B8", "b1"] key ∧
      completion ["b1", "C1", "B1"] key = completion ["c1", "B1"] key := by
  intro key
  have some : key ≠ [] := by decide
  have small : key.length ≤ 2 ^ 40 := by decide
  obtain ⟨rounded, -, more, same⟩ := completion_rounds ["b1", "C1", "B1"] key some small
  have names : ["b1", "C1", "B1"].map Text.upper = ["B1", "C1", "B1"] := by decide +kernel
  have names' : ["c1", "B1"].map Text.upper = ["C1", "B1"] := by decide +kernel
  refine ⟨some, small, rounded.trans (by decide +kernel), more _ (by decide +kernel), same _ ?_⟩
  intro name
  rw [names, names']
  simp only [List.mem_cons, List.not_mem_nil, or_false]
  tauto

end Grading

end Spreadsheet
