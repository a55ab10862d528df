import Spreadsheet.Address.Notation
import Spreadsheet.Proofs.Text.Capital

namespace Spreadsheet.Column

theorem isCapital_iff {c : Char} : isCapital c = true ↔ 65 ≤ c.toNat ∧ c.toNat ≤ 90 := by
  simp only [isCapital, Bool.and_eq_true, decide_eq_true_eq, Char.le_def, UInt32.le_iff_toNat_le,
    Char.toNat_val]
  rfl

theorem isAlpha_of_isCapital {c : Char} (h : isCapital c = true) : c.isAlpha = true :=
  Text.isAlpha_iff.mpr (.inl (isCapital_iff.mp h))

theorem number_append (cs : List Char) (c : Char) :
    number (cs ++ [c]) = 26 * number cs + letterValue c := by
  simp [number]

theorem letterOf_toNat {n : Nat} (h : n ≤ 26) : (letterOf n).toNat = 64 + n := by
  have all : ∀ n < 27, (letterOf n).toNat = 64 + n := by decide
  exact all n (by omega)

theorem number_letters (n : Nat) : number (letters n) = n := by
  induction n using Nat.strongRecOn with
  | ind n ih =>
    rw [letters]
    split
    · rename_i none
      rw [none]
      rfl
    · have digit : letterValue (letterOf ((n - 1) % 26 + 1)) = (n - 1) % 26 + 1 := by
        rw [letterValue, letterOf_toNat (by omega)]
        omega
      rw [number_append, ih ((n - 1) / 26) (by omega), digit]
      omega

theorem letterOf_letterValue {c : Char} (h : isCapital c = true) : letterOf (letterValue c) = c := by
  have code := isCapital_iff.mp h
  have same : 64 + (c.toNat - 64) = c.toNat := by omega
  rw [letterOf, letterValue, same, Char.ofNat_toNat]

theorem letters_number {cs : List Char} (capitals : cs.all isCapital = true) :
    letters (number cs) = cs := by
  induction cs using List.reverseRecOn with
  | nil => rw [number, List.foldl_nil, letters, if_pos rfl]
  | append_singleton cs c ih =>
    simp only [List.all_append, List.all_cons, List.all_nil, Bool.and_true,
      Bool.and_eq_true] at capitals
    have code := isCapital_iff.mp capitals.2
    have digit : letterValue c = c.toNat - 64 := rfl
    have positive : 26 * number cs + letterValue c ≠ 0 := by omega
    have before : (26 * number cs + letterValue c - 1) / 26 = number cs := by omega
    have last : (26 * number cs + letterValue c - 1) % 26 + 1 = letterValue c := by omega
    rw [number_append, letters, if_neg positive, before, last, ih capitals.1,
      letterOf_letterValue capitals.2]

theorem isCapital_of_mem_letters {n : Nat} {c : Char} (h : c ∈ letters n) :
    isCapital c = true := by
  induction n using Nat.strongRecOn with
  | ind n ih =>
    rw [letters] at h
    split at h
    · cases h
    · rcases List.mem_append.mp h with before | last
      · exact ih ((n - 1) / 26) (by omega) before
      · rw [List.mem_singleton.mp last, isCapital_iff, letterOf_toNat (by omega)]
        omega

theorem length_letters_le {k n : Nat} (h : n < 26 ^ k) : (letters n).length ≤ k := by
  induction k generalizing n with
  | zero =>
    rw [letters, if_pos (by simpa using h)]
    exact Nat.le_refl 0
  | succ k ih =>
    rw [letters]
    split
    · exact Nat.zero_le _
    · have less : (n - 1) / 26 < 26 ^ k := by
        rw [Nat.pow_succ] at h
        omega
      rw [List.length_append, List.length_singleton]
      exact Nat.succ_le_succ (ih less)

theorem length_le_of_number_lt {cs : List Char} {k : Nat} (capitals : cs.all isCapital = true)
    (h : number cs < 26 ^ k) : cs.length ≤ k := by
  have bound := length_letters_le h
  rwa [letters_number capitals] at bound

theorem letters_ne_nil {n : Nat} (h : n ≠ 0) : letters n ≠ [] := by
  rw [letters, if_neg h]
  simp

theorem number_pos {cs : List Char} (capitals : cs.all isCapital = true) (some : cs ≠ []) :
    0 < number cs := by
  obtain ⟨before, last, rfl⟩ := (List.eq_nil_or_concat cs).resolve_left some
  simp only [List.concat_eq_append, List.all_append, List.all_cons, Bool.and_eq_true] at capitals
  have code := isCapital_iff.mp capitals.2.1
  rw [List.concat_eq_append, number_append, letterValue]
  omega

theorem upperChars_letters (n : Nat) : Text.upperChars (letters n) = letters n := by
  apply Text.upperChars_of_lt
  intro c member
  have code := isCapital_iff.mp (isCapital_of_mem_letters member)
  omega

theorem index_letters {column : Int} (least : 0 ≤ column) (most : column ≤ Address.lastColumn) :
    index (String.ofList (letters (column + 1).toNat)) = .ok column := by
  have bound : (letters (column + 1).toNat).length ≤ 3 := by
    apply length_letters_le
    simp only [Address.lastColumn] at most
    omega
  have some : letters (column + 1).toNat ≠ [] := letters_ne_nil (by omega)
  have positive := List.length_pos_iff.mpr some
  have capitals : (letters (column + 1).toNat).all isCapital = true :=
    List.all_eq_true.mpr fun c member => isCapital_of_mem_letters member
  have same : ((column + 1).toNat : Int) - 1 = column := by omega
  simp only [index, String.toList_ofList, upperChars_letters, number_letters, same]
  rw [if_pos ⟨positive, bound, capitals⟩, if_neg (by omega)]

theorem index_eq_ok {letters : String} {column : Int} (h : index letters = .ok column)
    (alphabetic : letters.toList.all Char.isAlpha = true) :
    letters.toList.length ≤ 3 ∧ 0 ≤ column ∧ column ≤ Address.lastColumn := by
  simp only [index, Text.length_upperChars_of_isAlpha alphabetic] at h
  split at h
  · rename_i shape
    have positive : 0 < number (Text.upperChars letters.toList) := by
      refine number_pos shape.2.2 ?_
      rw [← List.length_pos_iff, Text.length_upperChars_of_isAlpha alphabetic]
      exact shape.1
    split at h
    · cases h
    · cases h
      omega
  · cases h

end Spreadsheet.Column
