import Mathlib.Data.List.Basic
import Spreadsheet.Grading

namespace Spreadsheet

/-- An entry has a formula like the candidate, up to blanks and case. -/
def AnswerEntry.Accepts (entry : AnswerEntry) (candidate : String) : Prop :=
  ∃ formula ∈ entry.accepted, Grading.normalize formula = Grading.normalize candidate

/-- An entry of a key is for the cell, whatever the case of either name. -/
def AnswerKey.Names (key : AnswerKey) (cell : String) (named : String × AnswerEntry) : Prop :=
  named ∈ key ∧ Text.upper named.1 = Text.upper cell

namespace Grading

variable {cell candidate : String} {key : AnswerKey} {entry : AnswerEntry}

theorem matchesAny_iff : matchesAny candidate entry.accepted = true ↔ entry.Accepts candidate := by
  simp only [matchesAny, List.any_eq_true, beq_iff_eq, AnswerEntry.Accepts]

theorem doneCount_singleton_pos : 0 < doneCount [cell] key ↔ ∃ named, key.Names cell named := by
  simp only [doneCount, List.countP_pos_iff, List.map_singleton, List.contains_iff_mem,
    List.mem_singleton, AnswerKey.Names]

theorem isCorrect_grade_iff :
    (grade cell candidate key).isCorrect = true ↔
      ∀ entry, List.lookup (Text.upper cell) key = some entry → entry.Accepts candidate := by
  unfold grade
  split
  · rename_i absent
    simp [absent]
  · rename_i entry found
    simp only [found, Option.some.injEq, forall_eq', ← matchesAny_iff]
    split
    · rename_i accepted
      simp [accepted]
    · rename_i rejected
      simp [rejected]

theorem exists_lookup_of_mem {name : String} (member : (name, entry) ∈ key) :
    ∃ first, List.lookup name key = some first ∧ (name, first) ∈ key := by
  cases found : List.lookup name key with
  | none =>
    have other := List.lookup_eq_none_iff.mp found _ member
    simp at other
  | some first =>
    obtain ⟨before, after, rfl, -⟩ := List.lookup_eq_some_iff.mp found
    exact ⟨first, rfl, by simp⟩

/-- A candidate is correct unless the entry under the cell's name in capitals rejects it. So where a
    key has an entry for the cell in capitals, what is correct is accepted by an entry for the cell.
    An entry for it under a name with small letters counts toward the completion of the key, but it
    rejects nothing. -/
theorem accepts_of_isCorrect (cell candidate : String) (key : AnswerKey) :
    ((grade cell candidate key).isCorrect = true ↔
        ∀ entry, List.lookup (Text.upper cell) key = some entry → entry.Accepts candidate) ∧
      (0 < doneCount [cell] key ↔ ∃ named, key.Names cell named) ∧
      ∀ named, key.Names cell named → Text.upper named.1 = named.1 →
        (grade cell candidate key).isCorrect = true →
        ∃ accepting, key.Names cell accepting ∧ accepting.2.Accepts candidate := by
  refine ⟨isCorrect_grade_iff, doneCount_singleton_pos, ?_⟩
  rintro ⟨name, entry⟩ ⟨member, same⟩ capital correct
  obtain ⟨first, found, among⟩ := exists_lookup_of_mem member
  have accepted := isCorrect_grade_iff.mp correct first (by rw [← same, capital, found])
  exact ⟨(name, first), ⟨among, same⟩, accepted⟩

theorem accepts_of_isCorrect_of_capital :
    let key : AnswerKey := [("B3", { accepted := ["=B2*1.15"], points := 100 })]
    (grade "b3" "= b2 * 1.15" key).isCorrect = true ∧
      ∃ accepting, key.Names "b3" accepting ∧ accepting.2.Accepts "= b2 * 1.15" := by
  intro key
  obtain ⟨-, -, accepting⟩ := accepts_of_isCorrect "b3" "= b2 * 1.15" key
  have named : key.Names "b3" ("B3", { accepted := ["=B2*1.15"], points := 100 }) :=
    ⟨List.mem_singleton_self _, by decide +kernel⟩
  have correct : (grade "b3" "= b2 * 1.15" key).isCorrect = true := by decide +kernel
  exact ⟨correct, accepting _ named (by decide +kernel) correct⟩

/-- Any formula is correct for a cell that the key names with a small letter, and completes it. -/
theorem isCorrect_of_small_name :
    let entry : AnswerEntry := { accepted := ["=B2*1.15"], points := 100 }
    let key : AnswerKey := [("b3", entry)]
    key.Names "b3" ("b3", entry) ∧ doneCount ["b3"] key = 1 ∧
      grade "b3" "=0" key = { isCorrect := true } ∧
      ¬ ∃ accepting, key.Names "b3" accepting ∧ accepting.2.Accepts "=0" := by
  intro entry key
  refine ⟨⟨List.mem_singleton_self _, rfl⟩, by decide +kernel, by decide +kernel, ?_⟩
  rintro ⟨accepting, ⟨member, -⟩, formula, accepted, same⟩
  rw [List.mem_singleton.mp member] at accepted
  rw [List.mem_singleton.mp accepted] at same
  exact absurd same (by decide +kernel)

end Grading

end Spreadsheet
