import Mathlib
import Spreadsheet.Text.Blank

namespace Spreadsheet.Text

theorem takeWhile_run {p : Char → Bool} {run rest : List Char} (all : run.all p = true)
    (stop : rest.head?.any p = false) : (run ++ rest).takeWhile p = run := by
  rw [List.takeWhile_append_of_pos (List.all_eq_true.mp all)]
  cases rest with
  | nil => simp
  | cons c rest => rw [List.takeWhile_cons_of_neg (by simpa using stop), List.append_nil]

theorem dropWhile_run {p : Char → Bool} {run rest : List Char} (all : run.all p = true)
    (stop : rest.head?.any p = false) : (run ++ rest).dropWhile p = rest := by
  rw [List.dropWhile_append_of_pos (List.all_eq_true.mp all)]
  cases rest with
  | nil => rfl
  | cons c rest => rw [List.dropWhile_cons_of_neg (by simpa using stop)]

theorem strip_append {lead cs trail : List Char} (before : lead.all isBlank = true)
    (after : trail.all isBlank = true) (first : cs.head?.any isBlank = false)
    (final : cs.getLast?.any isBlank = false) : strip (lead ++ (cs ++ trail)) = cs := by
  unfold strip dropBlanks
  cases cs with
  | nil =>
    have all : (lead ++ trail).all isBlank = true := by
      rw [List.all_append, before, after]
      rfl
    have none : (lead ++ trail ++ []).dropWhile isBlank = [] := dropWhile_run all rfl
    rw [List.append_nil] at none
    rw [List.nil_append, none]
    rfl
  | cons c cs =>
    have whole : (lead ++ (c :: cs ++ trail)).dropWhile isBlank = c :: cs ++ trail :=
      dropWhile_run before first
    have back : (trail.reverse ++ (c :: cs).reverse).dropWhile isBlank = (c :: cs).reverse :=
      dropWhile_run (by rwa [List.all_reverse]) (by rwa [List.head?_reverse])
    rw [whole, List.reverse_append, back, List.reverse_reverse]

theorem exists_strip (cs : List Char) :
    ∃ lead trail, cs = lead ++ (strip cs ++ trail) ∧ lead.all isBlank = true ∧
      trail.all isBlank = true := by
  have front : cs.takeWhile isBlank ++ dropBlanks cs = cs := List.takeWhile_append_dropWhile
  have back : (dropBlanks cs).reverse.takeWhile isBlank ++ dropBlanks (dropBlanks cs).reverse =
    (dropBlanks cs).reverse := List.takeWhile_append_dropWhile
  refine ⟨cs.takeWhile isBlank, ((dropBlanks cs).reverse.takeWhile isBlank).reverse, ?_,
    List.all_takeWhile, ?_⟩
  · have whole := congrArg List.reverse back
    rw [List.reverse_append, List.reverse_reverse] at whole
    rw [strip, whole, front]
  · rw [List.all_reverse]
    exact List.all_takeWhile

end Spreadsheet.Text
