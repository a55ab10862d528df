import Spreadsheet.Decimal.Fixed
import Spreadsheet.Proofs.Address.Codec
import Spreadsheet.Proofs.Token.Number

namespace Spreadsheet

theorem Text.all_of_subset {p : Char → Bool} {cs ds : List Char} (subset : cs ⊆ ds)
    (all : ds.all p = true) : cs.all p = true :=
  List.all_eq_true.mpr fun c member => List.all_eq_true.mp all c (subset member)

namespace Numeral

variable {c places : Nat}

theorem all_isDigit_digits (c : Nat) : (digits c).all Char.isDigit = true :=
  List.all_eq_true.mpr fun _ member => Nat.isDigit_of_mem_toDigits (by decide) (by decide) member

theorem digits_ne_nil (c : Nat) : digits c ≠ [] := Nat.toDigits_ne_nil

theorem eq_zero_of_head?_digits (h : (digits c).head? = some '0') : c = 0 := by
  by_contra some
  have value : Nat.ofDigitChars 10 (digits c) 0 = c := Nat.ofDigitChars_ten_toDigits
  have same := Address.toDigits_ofDigitChars (all_isDigit_digits c)
    (by rw [value]; exact Nat.pos_of_ne_zero some)
  have other := List.head?_dropWhile_not (· == '0') (digits c)
  rw [← same, value] at other
  rw [digits] at h
  rw [h] at other
  cases other

/-- The digits of a coefficient, with zeros in front up to the first one before the point. -/
def padded (c places : Nat) : List Char := (digits c).leftpad (places + 1) '0'

def wholeDigits (c places : Nat) : List Char :=
  (padded c places).take ((padded c places).length - places)

def fractionDigits (c places : Nat) : List Char :=
  (padded c places).drop ((padded c places).length - places)

theorem withPoint_digits (c places : Nat) :
    withPoint (digits c) places = wholeDigits c places ++ '.' :: fractionDigits c places := rfl

theorem wholeDigits_append_fractionDigits (c places : Nat) :
    wholeDigits c places ++ fractionDigits c places = padded c places := List.take_append_drop _ _

theorem length_padded (c places : Nat) :
    (padded c places).length = max (places + 1) (digits c).length := List.length_leftpad

theorem length_fractionDigits (c places : Nat) : (fractionDigits c places).length = places := by
  have size := length_padded c places
  rw [fractionDigits, List.length_drop]
  omega

theorem all_isDigit_padded (c places : Nat) : (padded c places).all Char.isDigit = true := by
  rw [padded, List.leftpad, List.all_append, all_isDigit_digits, List.all_replicate]
  simp

theorem all_isDigit_wholeDigits (c places : Nat) :
    (wholeDigits c places).all Char.isDigit = true :=
  Text.all_of_subset (List.take_subset _ _) (all_isDigit_padded c places)

theorem all_isDigit_fractionDigits (c places : Nat) :
    (fractionDigits c places).all Char.isDigit = true :=
  Text.all_of_subset (List.drop_subset _ _) (all_isDigit_padded c places)

theorem digitsValue_padded (c places : Nat) : Text.digitsValue (padded c places) = c := by
  rw [Address.digitsValue_eq_ofDigitChars (all_isDigit_padded c places), padded, List.leftpad,
    Nat.ofDigitChars_append, Nat.ofDigitChars_replicate_zero, Nat.mul_zero]
  exact Nat.ofDigitChars_ten_toDigits

theorem wholeDigits_ne_nil (c places : Nat) : wholeDigits c places ≠ [] := by
  have size := length_padded c places
  rw [ne_eq, ← List.length_eq_zero_iff, wholeDigits, List.length_take]
  omega

theorem padded_of_lt (long : places < (digits c).length) : padded c places = digits c := by
  rw [padded, List.leftpad, Nat.sub_eq_zero_of_le long, List.replicate_zero, List.nil_append]

theorem wholeDigits_of_head? (h : (wholeDigits c places).head? = some '0') :
    wholeDigits c places = ['0'] := by
  have single : (wholeDigits c places).length = 1 := by
    have size := length_padded c places
    rw [wholeDigits, List.length_take]
    rcases Nat.lt_or_ge places (digits c).length with long | short
    · -- The first digit of the coefficient stands before the point, so the coefficient is zero.
      rw [wholeDigits, List.head?_take, if_neg (by omega), padded_of_lt long] at h
      have zero := eq_zero_of_head?_digits h
      have one : (digits c).length = 1 := by rw [zero]; rfl
      omega
    · omega
  obtain ⟨d, whole⟩ := List.length_eq_one_iff.mp single
  rw [whole] at h ⊢
  rw [Option.some.inj h]

/-- The digits of a coefficient with a point, or those before it if only zeros follow. -/
def fixedMantissa (c places : Nat) : Token.Mantissa :=
  ⟨wholeDigits c places,
    if (fractionDigits c places).all (· == '0') then none else some (fractionDigits c places)⟩

def scientificMantissa (c : Nat) : Token.Mantissa :=
  ⟨(digits c).take 1, if (digits c).tail = [] then none else some (digits c).tail⟩

theorem mantissaText_digits (c : Nat) : mantissaText (digits c) = (scientificMantissa c).chars := by
  unfold scientificMantissa Token.Mantissa.chars
  cases digits c with
  | nil => rfl
  | cons d ds => cases ds <;> rfl

theorem padded_zero (places : Nat) : padded 0 places = List.replicate (places + 1) '0' :=
  List.replicate_succ'.symm

theorem fixedMantissa_zero (places : Nat) : fixedMantissa 0 places = ⟨['0'], none⟩ := by
  have whole : wholeDigits 0 places = ['0'] := by
    refine wholeDigits_of_head? ?_
    rw [wholeDigits, padded_zero, List.length_replicate, Nat.add_sub_cancel_left]
    rfl
  have fraction : (fractionDigits 0 places).all (· == '0') = true := by
    rw [fractionDigits, padded_zero, List.drop_replicate, List.all_replicate]
    simp
  rw [fixedMantissa, whole, if_pos fraction]

theorem chars_fixedMantissa (c places : Nat) : (fixedMantissa c places).chars =
    if (fractionDigits c places).all (· == '0') then wholeDigits c places
    else wholeDigits c places ++ '.' :: fractionDigits c places := by
  unfold fixedMantissa
  split <;> rfl

theorem pos_iff_padded (c places : Nat) : 0 < c ↔ ∃ d ∈ padded c places, d ≠ '0' := by
  have value := digitsValue_padded c places
  rw [Address.digitsValue_eq_ofDigitChars (all_isDigit_padded c places)] at value
  rw [← Address.ofDigitChars_pos_iff (all_isDigit_padded c places), value]

theorem chars_fixedMantissa_eq_zero_iff : (fixedMantissa c places).chars = ['0'] ↔ c = 0 := by
  constructor
  · intro same
    by_contra some
    obtain ⟨d, member, other⟩ := (pos_iff_padded c places).mp (Nat.pos_of_ne_zero some)
    rw [chars_fixedMantissa] at same
    rw [← wholeDigits_append_fractionDigits, List.mem_append] at member
    split at same
    · rename_i zeros
      rcases member with member | member
      · rw [same] at member
        exact other (List.mem_singleton.mp member)
      · exact other (by simpa using List.all_eq_true.mp zeros d member)
    · have point : '.' ∈ ['0'] := same ▸ by simp
      simp at point
  · rintro rfl
    rw [fixedMantissa_zero]
    rfl

theorem head?_chars_fixedMantissa (c places : Nat) :
    (fixedMantissa c places).chars.head?.any Char.isDigit = true := by
  have first (rest : List Char) : (wholeDigits c places ++ rest).head?.any Char.isDigit = true :=
    Token.head?_any_of_all (wholeDigits_ne_nil c places) (all_isDigit_wholeDigits c places) rest
  rw [chars_fixedMantissa]
  split
  · rw [← List.append_nil (wholeDigits c places)]
    exact first []
  · exact first _

end Numeral

namespace Fixed

open Numeral

theorem positional_digits (c places : Nat) : positional (digits c) (-places) =
    if places = 0 then digits c else wholeDigits c places ++ '.' :: fractionDigits c places := by
  unfold positional
  split
  · rename_i zero
    have none : places = 0 := by omega
    rw [if_pos none, none]
    exact List.append_nil _
  · rename_i some
    rw [if_neg (by omega), Int.neg_neg, Int.toNat_natCast, withPoint_digits]

theorem isSuffixOf_fraction {places : Nat} (before ds : List Char) (size : ds.length = places) :
    ('.' :: List.replicate places '0').isSuffixOf (before ++ '.' :: ds) =
      ds.all (· == '0') := by
  rw [Bool.eq_iff_iff, List.isSuffixOf_iff_suffix, List.all_eq_true]
  have lengths : ('.' :: List.replicate places '0').length = ('.' :: ds).length := by simp [size]
  have suffix : '.' :: List.replicate places '0' <:+ before ++ '.' :: ds ↔
      '.' :: List.replicate places '0' = '.' :: ds :=
    (List.suffix_append_inj_of_length_eq lengths).trans (and_iff_right List.nil_suffix)
  rw [suffix, List.cons_inj_right, eq_comm, List.eq_replicate_iff]
  simp [size]

theorem trimFraction_append {places : Nat} (before ds : List Char) (some : 0 < places)
    (size : ds.length = places) :
    trimFraction places (before ++ '.' :: ds) =
      if ds.all (· == '0') then before else before ++ '.' :: ds := by
  have positive : (0 : Int) < places := by omega
  have length : (before ++ '.' :: ds).length -
      ('.' :: List.replicate places '0').length = before.length := by simp [size]
  unfold trimFraction
  dsimp only
  rw [Int.toNat_natCast, isSuffixOf_fraction before ds size, length, List.take_left]
  simp only [positive, true_and]

theorem trimFraction_positional (sign : List Char) (c places : Nat) :
    trimFraction places (sign ++ positional (digits c) (-places)) =
      sign ++ (fixedMantissa c places).chars := by
  rw [positional_digits, chars_fixedMantissa]
  cases places with
  | zero =>
    have none : fractionDigits c 0 = [] := List.length_eq_zero_iff.mp (length_fractionDigits c 0)
    have whole := wholeDigits_append_fractionDigits c 0
    rw [none, List.append_nil, padded_of_lt (List.length_pos_iff.mpr (digits_ne_nil c))] at whole
    rw [if_pos rfl, none, whole]
    unfold trimFraction
    exact if_neg fun both => absurd both.1 (by decide)
  | succ places =>
    rw [if_neg (Nat.succ_ne_zero places), ← List.append_assoc,
      trimFraction_append _ _ (Nat.succ_pos places) (length_fractionDigits c _), List.append_assoc]
    split <;> rfl

theorem trimFraction_exponentText (places exponent : Int) (cs : List Char) :
    trimFraction places (cs ++ 'E' :: exponentText exponent) =
      cs ++ 'E' :: exponentText exponent := by
  unfold trimFraction
  refine if_neg fun both => ?_
  have suffix := List.isSuffixOf_iff_suffix.mp both.2
  -- A fraction of zeros would have to stand behind the E or to hold it.
  rcases List.suffix_or_suffix_of_suffix suffix (List.suffix_append cs _) with short | long
  · have member := short.mem List.mem_cons_self
    rw [exponentText, List.mem_cons, List.mem_cons] at member
    rcases member with mark | sign | digit
    · exact absurd mark (by decide)
    · split at sign
      · exact absurd sign (by decide)
      · exact absurd sign (by decide)
    · exact absurd (List.all_eq_true.mp (all_isDigit_digits _) _ digit) (by decide)
  · have member := long.mem List.mem_cons_self
    rcases List.mem_cons.mp member with point | zero
    · exact absurd point (by decide)
    · exact absurd (List.eq_of_mem_replicate zero) (by decide)

theorem unsigned_zero (negative : Bool) (c places : Nat) :
    let cs := signText negative ++ (fixedMantissa c places).chars
    (if cs = ['-', '0'] then ['0'] else cs) =
      signText (negative && c != 0) ++ (fixedMantissa c places).chars := by
  intro cs
  by_cases zero : c = 0
  · subst cs
    rw [zero, fixedMantissa_zero]
    cases negative <;> rfl
  · rw [if_neg, bne_iff_ne.mpr zero, Bool.and_true]
    intro same
    cases negative with
    | false =>
      have first : cs.head?.any Char.isDigit = true := head?_chars_fixedMantissa c places
      rw [same] at first
      cases first
    | true => exact zero (chars_fixedMantissa_eq_zero_iff.mp (List.cons_eq_cons.mp same).2)

def IsWrittenOut (n : Numeral) : Prop :=
  n.exponent ≤ 0 ∧ -6 ≤ adjusted (digits n.coefficient) n.exponent

variable {d : Dyadic} {places : Int}

theorem shown_of_le (fine : places ≤ finestPlaces) : shown d places = rounded d places := by
  rw [shown, min_eq_left fine]

theorem toList_text_of_isWrittenOut (fine : places ≤ finestPlaces)
    (h : IsWrittenOut (rounded d places)) :
    (text d places).toList =
      signText (d.negative && (rounded d places).coefficient != 0) ++
        (fixedMantissa (rounded d places).coefficient places.toNat).chars := by
  have natural : 0 ≤ places := by
    have exponent : -places ≤ 0 := h.1
    omega
  obtain ⟨p, rfl⟩ := Int.eq_ofNat_of_zero_le natural
  have trimmed : trimFraction p (layout (rounded d p)) = signText d.negative ++
      (fixedMantissa (rounded d p).coefficient p).chars := by
    rw [← trimFraction_positional]
    exact congrArg (trimFraction p) (congrArg _ (if_pos h))
  rw [text, shown_of_le fine, trimmed, String.toList_ofList, Int.toNat_natCast]
  exact unsigned_zero d.negative (rounded d p).coefficient p

theorem toList_text_of_not_isWrittenOut (fine : places ≤ finestPlaces)
    (h : ¬ IsWrittenOut (rounded d places)) :
    (text d places).toList =
      signText d.negative ++ ((scientificMantissa (rounded d places).coefficient).chars ++
        'E' :: exponentText (adjusted (digits (rounded d places).coefficient) (-places))) := by
  have whole : layout (rounded d places) = signText d.negative ++
      (mantissaText (digits (rounded d places).coefficient) ++
        'E' :: exponentText (adjusted (digits (rounded d places).coefficient) (-places))) :=
    congrArg _ (if_neg h)
  rw [← mantissaText_digits, ← List.append_assoc] at *
  rw [text, shown_of_le fine, whole, trimFraction_exponentText, String.toList_ofList]
  refine if_neg fun same => ?_
  have mark : 'E' ∈ ['-', '0'] := same ▸ by simp
  exact absurd mark (by decide)

end Fixed

end Spreadsheet
