import Spreadsheet.Cell.Literal
import Spreadsheet.Proofs.Decimal.Denotation
import Spreadsheet.Proofs.Decimal.Reading
import Spreadsheet.Proofs.Decimal.Uniqueness

namespace Spreadsheet

variable {digit : Char → Bool} {cs lead trail : List Char} {c : Char} {n : Numeral}
  {isPercent : Bool} {text : String}

namespace Numeral

theorem SignText.mem {negative : Bool} (h : SignText cs negative) (member : c ∈ cs) :
    c ∈ ['+', '-'] := by
  cases h with
  | absent => cases member
  | plus | minus => simp_all

theorem Denotes.mem (h : Denotes digit cs n) (member : c ∈ cs) :
    digit c = true ∨ c ∈ ['+', '-', '.', 'e', 'E'] := by
  cases h with
  | intro signed whole fraction some raised =>
    rcases List.mem_append.mp member with sign | member
    · exact .inr (List.mem_append_left ['.', 'e', 'E'] (signed.mem sign))
    rcases List.mem_append.mp member with mantissa | power
    · rcases Token.Mantissa.digit_of_mem_chars whole fraction mantissa with digit | rfl
      · exact .inl digit
      · exact .inr (by decide)
    cases raised with
    | absent => cases power
    | written letter signed some digits =>
      rcases List.mem_cons.mp power with rfl | member
      · rcases letter with rfl | rfl <;> exact .inr (by decide)
      rcases List.mem_append.mp member with sign | member
      · exact .inr (List.mem_append_left ['.', 'e', 'E'] (signed.mem sign))
      · exact .inl (List.all_eq_true.mp digits c member)

theorem Denotes.ne_nil (h : Denotes digit cs n) : cs ≠ [] := by
  cases h with
  | @intro _ exponent _ _ _ _ whole _ some =>
    obtain ⟨c, rest, first, -⟩ := Token.Mantissa.head?_chars whole some exponent
    rw [first]
    simp

theorem Denotes.mark (h : Denotes Text.isDecimalDigit cs n) (member : c ∈ cs) :
    Text.isBlank c = false ∧ c ≠ '%' := by
  rcases h.mem member with digit | mark
  · refine ⟨?_, ?_⟩
    · rw [← Bool.not_eq_true]
      intro blank
      rw [Text.isDecimalDigit_of_isBlank blank] at digit
      cases digit
    · rintro rfl
      exact absurd digit (by decide)
  · simp only [List.mem_cons, List.not_mem_nil, or_false] at mark
    rcases mark with rfl | rfl | rfl | rfl | rfl <;> exact ⟨by decide, by decide⟩

end Numeral

namespace Literal

/-- What a text has beside dollars and commas is a number between blanks, with a percent sign after
    it or without. -/
def Shows (digit : Char → Bool) (text : String) (n : Numeral) (isPercent : Bool) : Prop :=
  ∃ lead cs gap trail, Numeral.Denotes digit cs n ∧ lead.all Text.isBlank = true ∧
    gap.all Text.isBlank = true ∧ trail.all Text.isBlank = true ∧
    (text.toList.filter fun c => ! (c == '$' || c == ',')) =
      lead ++ (cs ++ (gap ++ ((if isPercent then ['%'] else []) ++ trail)))

theorem Shows.mono {digit' : Char → Bool} (h : Shows digit text n isPercent)
    (wider : ∀ c, digit c = true → digit' c = true) : Shows digit' text n isPercent := by
  obtain ⟨lead, cs, gap, trail, denotes, blanks⟩ := h
  exact ⟨lead, cs, gap, trail, denotes.mono wider, blanks⟩

theorem splitPercent_append (cs : List Char) :
    splitPercent (cs ++ ['%']) = (Text.strip cs, true) := by
  rw [splitPercent, List.reverse_append]
  exact congrArg (·, true) (congrArg _ (List.reverse_reverse cs))

theorem splitPercent_of_getLast? (h : cs.getLast? ≠ some '%') : splitPercent cs = (cs, false) := by
  unfold splitPercent
  split
  · rename_i before reversed
    rw [← List.head?_reverse, reversed] at h
    exact absurd rfl h
  · rfl

theorem splitPercent_bare {lead cs gap trail : List Char}
    (h : Numeral.Denotes Text.isDecimalDigit cs n) (before : lead.all Text.isBlank = true)
    (between : gap.all Text.isBlank = true) (after : trail.all Text.isBlank = true)
    (whole : (text.toList.filter fun c => ! (c == '$' || c == ',')) =
      lead ++ (cs ++ (gap ++ ((if isPercent then ['%'] else []) ++ trail)))) :
    splitPercent (bare text.toList) = (cs, isPercent) := by
  have first : cs.head?.any Text.isBlank = false := by
    cases head : cs.head? with
    | none => rfl
    | some c => exact (h.mark (List.mem_of_head? head)).1
  have final : cs.getLast?.any Text.isBlank = false := by
    cases last : cs.getLast? with
    | none => rfl
    | some c => exact (h.mark (List.mem_of_getLast? last)).1
  rw [bare, whole]
  cases isPercent with
  | true =>
    have inner : Text.strip (cs ++ gap) = cs :=
      Text.strip_append (List.all_nil ..) between first final
    have outer : Text.strip (lead ++ (cs ++ gap ++ ['%'] ++ trail)) = cs ++ gap ++ ['%'] := by
      refine Text.strip_append before after ?_ ?_
      · rwa [List.append_assoc, List.head?_append_of_ne_nil _ h.ne_nil]
      · rw [List.getLast?_concat]
        rfl
    rw [List.append_assoc, List.append_assoc] at outer
    rw [if_pos rfl, outer, splitPercent_append, inner]
  | false =>
    have blank : (gap ++ trail).all Text.isBlank = true := by
      rw [List.all_append, between, after]
      rfl
    have outer := Text.strip_append before blank first final
    rw [if_neg Bool.false_ne_true, List.nil_append, outer]
    exact splitPercent_of_getLast? fun last => (h.mark (List.mem_of_getLast? last)).2 rfl

theorem shows_of_read? (h : Numeral.read? (splitPercent (bare text.toList)).1 = some n) :
    Shows Text.isDecimalDigit text n (splitPercent (bare text.toList)).2 := by
  obtain ⟨lead, trail, whole, before, after⟩ :=
    Text.exists_strip (text.toList.filter fun c => ! (c == '$' || c == ','))
  rw [Numeral.read?_eq_some_iff] at h
  have stripped : bare text.toList =
    Text.strip (text.toList.filter fun c => ! (c == '$' || c == ',')) := rfl
  rw [← stripped] at whole
  generalize bare text.toList = cs at *
  unfold splitPercent at h ⊢
  split at h
  · rename_i rest reversed
    obtain ⟨lead', gap, inner, before', between⟩ := Text.exists_strip rest.reverse
    have written : cs = rest.reverse ++ ['%'] := by
      rw [← List.reverse_reverse cs, reversed, List.reverse_cons]
    generalize Text.strip rest.reverse = number at *
    refine ⟨lead ++ lead', number, gap, trail, h, ?_, between, after, ?_⟩
    · rw [List.all_append, before, before']
      rfl
    · rw [whole, written, inner]
      simp only [List.append_assoc, if_true]
  · exact ⟨lead, cs, [], trail, h, before, rfl, after, whole⟩

theorem value_of_shows (h : Shows Text.isDecimalDigit text n isPercent) :
    value text =
      if n.toFloat.isFinite then (if isPercent then n.toFloat / 100.0 else n.toFloat, [])
      else (0.0, [.outOfRange text]) := by
  obtain ⟨lead, cs, gap, trail, denotes, before, between, after, whole⟩ := h
  have some : text.isEmpty = false := by
    rw [← Bool.not_eq_true, String.isEmpty_iff]
    rintro rfl
    have parts := congrArg List.length whole
    have length := List.length_pos_iff.mpr denotes.ne_nil
    simp only [String.toList_empty, List.filter_nil, List.length_nil, List.length_append] at parts
    omega
  unfold value
  rw [splitPercent_bare denotes before between after whole]
  simp only [some, Numeral.read?_eq_some_iff.mpr denotes, Bool.false_eq_true, if_false]

theorem value_of_not_shows (h : ∀ n isPercent, ¬ Shows Text.isDecimalDigit text n isPercent) :
    value text = (0.0, if text.isEmpty then [] else [.nonNumeric text]) := by
  have none : Numeral.read? (splitPercent (bare text.toList)).1 = none := by
    cases read : Numeral.read? (splitPercent (bare text.toList)).1 with
    | none => rfl
    | some n => exact absurd (shows_of_read? read) (h n _)
  unfold value
  split
  · rfl
  · simp only [none]

open Double in
/-- The double that a number with a percent sign or without counts as: the nearest one, or the one
    nearest to a hundredth of that. A zero has the sign of the number. -/
def CountsAs (n : Numeral) (isPercent : Bool) (y : Float) : Prop :=
  ∃ x, IsNearest n.value x ∧ (Dyadic.ofFloat x).negative = n.negative ∧
    if isPercent then
      IsNearest ((Dyadic.ofFloat x).value / 100) y ∧ (Dyadic.ofFloat y).negative = n.negative
    else y = x

theorem CountsAs.unique {y y' : Float} (h : CountsAs n isPercent y)
    (h' : CountsAs n isPercent y') : y = y' := by
  obtain ⟨x, near, sign, result⟩ := h
  obtain ⟨x', near', sign', result'⟩ := h'
  obtain rfl := near.unique near' (sign.trans sign'.symm)
  cases isPercent with
  | true => exact result.1.unique result'.1 (result.2.trans result'.2.symm)
  | false => exact result.trans result'.symm

/-- Literals count as the numbers they show, in the digits of any script, each as the one double that
    is nearest: numbers beyond the doubles and text without a number count as zero, which is noted. -/
theorem value_correct (text : String) :
    (∀ n isPercent, Shows Text.isDecimalDigit text n isPercent →
      (|n.value| < Double.limit →
        ∃ y, value text = (y, []) ∧ ∀ z, CountsAs n isPercent z ↔ z = y) ∧
      (Double.limit ≤ |n.value| → value text = (0.0, [.outOfRange text]))) ∧
    ((∀ n isPercent, ¬ Shows Text.isDecimalDigit text n isPercent) →
      value text = (0.0, if text.isEmpty then [] else [.nonNumeric text])) ∧
    (∀ n isPercent, Shows Char.isDigit text n isPercent →
      Shows Text.isDecimalDigit text n isPercent) := by
  refine ⟨fun n isPercent h => ?_, value_of_not_shows,
    fun n isPercent h => h.mono fun _ => Text.isDecimalDigit_of_isDigit⟩
  have rounds := n.rounds_toFloat
  rw [← n.abs_value] at rounds
  rw [value_of_shows h]
  constructor
  · intro small
    obtain ⟨near, sign⟩ := rounds.nearest small
    rw [n.abs_value] at near
    rw [if_pos near.finite]
    have counts : CountsAs n isPercent (if isPercent then n.toFloat / 100.0 else n.toFloat) := by
      refine ⟨n.toFloat, near, sign, ?_⟩
      cases isPercent with
      | true => exact sign ▸ Double.isNearest_hundredth near.finite
      | false => rfl
    exact ⟨_, rfl, fun z => ⟨fun other => other.unique counts, fun same => same ▸ counts⟩⟩
  · intro large
    rw [rounds.overflow large]
    rfl

theorem value_correct_of_price :
    Shows Text.isDecimalDigit "$1,234.5 %" ⟨false, 12345, -1⟩ true ∧
      ∃ y, value "$1,234.5 %" = (y, []) ∧ ∀ z, CountsAs ⟨false, 12345, -1⟩ true z ↔ z = y := by
  have shows : Shows Text.isDecimalDigit "$1,234.5 %" ⟨false, 12345, -1⟩ true := by
    refine ⟨[], "1234.5".toList, [' '], [], ?_, rfl, by decide, rfl, by decide⟩
    exact Numeral.read?_eq_some_iff.mp (by decide)
  have size : Double.Representable (Numeral.value ⟨false, 12345, -1⟩) :=
    ⟨2469, -1, by norm_num, by decide, by decide, by norm_num [Numeral.value, signFactor]⟩
  exact ⟨shows, ((value_correct "$1,234.5 %").1 _ _ shows).1 size.abs_lt_limit⟩

/-- A digit of another script makes a number, which is none in ASCII digits. -/
theorem value_of_arabic_digit :
    (∀ n isPercent, ¬ Shows Char.isDigit "٣" n isPercent) ∧ value "٣" = (3.0, []) ∧
      (3.0 : Float) ≠ 0.0 := by
  refine ⟨?_, by decide, by decide⟩
  rintro n isPercent ⟨lead, cs, gap, trail, denotes, before, between, after, whole⟩
  have wider := denotes.mono fun _ => Text.isDecimalDigit_of_isDigit
  have written := splitPercent_bare wider before between after whole
  have found : splitPercent (bare "٣".toList) = (['٣'], false) := by decide
  obtain rfl : ['٣'] = cs := congrArg Prod.fst (found.symm.trans written)
  exact absurd (denotes.mem (List.mem_singleton_self _)) (by decide)

end Literal

end Spreadsheet
