import Spreadsheet.Proofs.Token.Number

namespace Spreadsheet.Numeral

open Token (Mantissa)

variable {digit : Char → Bool} {cs ds rest : List Char} {negative : Bool} {power : Int}
  {m : Mantissa} {n : Numeral}

/-- A sign or none, and whether it makes a number negative. -/
inductive SignText : List Char → Bool → Prop where
  | absent : SignText [] false
  | plus : SignText ['+'] false
  | minus : SignText ['-'] true

/-- An exponent or none, and the power of ten it stands for. -/
inductive PowerText (digit : Char → Bool) : List Char → Int → Prop where
  | absent : PowerText digit [] 0
  | written {mark : Char} {sign ds : List Char} {negative : Bool} (letter : mark = 'e' ∨ mark = 'E')
      (signed : SignText sign negative) (some : ds ≠ []) (digits : ds.all digit = true) :
      PowerText digit (mark :: (sign ++ ds))
        (if negative then -(Text.digitsValue ds : Int) else Text.digitsValue ds)

/-- The texts of decimal numbers with digits of a class: a sign or none, digits with or without a
    fraction or a fraction alone, and an exponent or none. -/
inductive Denotes (digit : Char → Bool) : List Char → Numeral → Prop where
  | intro {sign exponent : List Char} {m : Mantissa} {negative : Bool} {power : Int}
      (signed : SignText sign negative) (whole : m.whole.all digit = true)
      (fraction : ∀ ds ∈ m.fraction, ds.all digit = true) (some : m.hasDigits = true)
      (raised : PowerText digit exponent power) :
      Denotes digit (sign ++ (m.chars ++ exponent))
        ⟨negative, Text.digitsValue m.digits, power - m.places⟩

theorem SignText.readSign (h : SignText cs negative)
    (unsigned : rest.head? ≠ some '+' ∧ rest.head? ≠ some '-') :
    readSign (cs ++ rest) = (negative, rest) := by
  cases h with
  | plus | minus => rfl
  | absent =>
    rw [List.nil_append]
    unfold Numeral.readSign
    split
    · exact absurd rfl unsigned.1
    · exact absurd rfl unsigned.2
    · rfl

theorem exists_signText (cs : List Char) :
    ∃ sign, SignText sign (readSign cs).1 ∧ cs = sign ++ (readSign cs).2 := by
  unfold readSign
  split
  · exact ⟨['+'], .plus, rfl⟩
  · exact ⟨['-'], .minus, rfl⟩
  · exact ⟨[], .absent, rfl⟩

theorem head?_digits (nonempty : ds ≠ []) (digits : ds.all Text.isDecimalDigit = true) :
    ds.head? ≠ some '+' ∧ ds.head? ≠ some '-' := by
  cases ds with
  | nil => exact absurd rfl nonempty
  | cons c ds =>
    simp only [List.all_cons, Bool.and_eq_true] at digits
    refine ⟨fun same => ?_, fun same => ?_⟩ <;>
      · rw [Option.some.inj same] at digits
        exact absurd digits.1 (by decide)

theorem readExponent?_iff :
    readExponent? cs = some power ↔ PowerText Text.isDecimalDigit cs power := by
  constructor
  · intro h
    cases cs with
    | nil =>
      obtain rfl : 0 = power := Option.some.inj h
      exact .absent
    | cons mark rest =>
      obtain ⟨sign, signed, whole⟩ := exists_signText rest
      unfold readExponent? at h
      dsimp only at h
      split at h
      · rename_i shape
        simp only [Bool.and_eq_true, Bool.or_eq_true, beq_iff_eq, Bool.not_eq_true',
          List.isEmpty_eq_false_iff] at shape
        obtain ⟨⟨letter, some⟩, digits⟩ := shape
        generalize readSign rest = read at *
        rw [← Option.some.inj h, whole]
        exact .written letter signed some digits
      · cases h
  · intro h
    cases h with
    | absent => rfl
    | written letter signed some digits =>
      have sign := signed.readSign (head?_digits some digits)
      unfold readExponent?
      dsimp only
      rw [sign, if_pos]
      simp [letter, some, digits]

theorem PowerText.head? (h : PowerText digit cs power) :
    cs.head?.any Text.isDecimalDigit = false ∧ cs.head? ≠ some '.' := by
  cases h with
  | absent => exact ⟨rfl, nofun⟩
  | written letter =>
    rcases letter with rfl | rfl
    · exact ⟨(by decide : Text.isDecimalDigit 'e' = false), by simp⟩
    · exact ⟨(by decide : Text.isDecimalDigit 'E' = false), by simp⟩

theorem exists_mantissa (cs : List Char) :
    let m : Mantissa := ⟨cs.takeWhile Text.isDecimalDigit,
      (readFraction (cs.dropWhile Text.isDecimalDigit)).1⟩
    cs = m.chars ++ (readFraction (cs.dropWhile Text.isDecimalDigit)).2 ∧
      ∀ ds ∈ m.fraction, ds.all Text.isDecimalDigit = true := by
  have front : cs.takeWhile Text.isDecimalDigit ++ cs.dropWhile Text.isDecimalDigit = cs :=
    List.takeWhile_append_dropWhile
  unfold readFraction
  split
  · rename_i rest point
    have back : rest.takeWhile Text.isDecimalDigit ++ rest.dropWhile Text.isDecimalDigit = rest :=
      List.takeWhile_append_dropWhile
    refine ⟨?_, ?_⟩
    · simp only [Mantissa.chars, List.append_assoc, List.cons_append, back]
      rw [← point, front]
    · rintro _ ⟨⟩
      exact List.all_takeWhile
  · exact ⟨front.symm, fun ds member => absurd member (Option.not_mem_none ds)⟩

/-- The texts that are read as numerals are those of decimal numbers with the digits of any
    script. -/
theorem read?_eq_some_iff : read? cs = some n ↔ Denotes Text.isDecimalDigit cs n := by
  constructor
  · intro h
    obtain ⟨sign, signed, whole⟩ := exists_signText cs
    obtain ⟨unsigned, fraction⟩ := exists_mantissa (readSign cs).2
    unfold read? at h
    dsimp only at h
    split at h
    · cases h
    · rename_i digits
      obtain ⟨power, raised, rfl⟩ := Option.map_eq_some_iff.mp h
      rw [Bool.not_eq_true, ← Bool.not_eq_true'] at digits
      have denotes := Denotes.intro signed List.all_takeWhile fraction
        ((Mantissa.hasDigits_eq _).trans digits) (readExponent?_iff.mp raised)
      rwa [← unsigned, ← whole] at denotes
  · intro h
    cases h with
    | @intro sign exponent m negative power signed whole fraction some raised =>
      obtain ⟨c, rest, first, mark⟩ := Mantissa.head?_chars whole some exponent
      obtain ⟨stop, point⟩ := raised.head?
      have unsigned : (m.chars ++ exponent).head? ≠ .some '+' ∧
          (m.chars ++ exponent).head? ≠ .some '-' := by
        rw [first]
        refine ⟨fun same => ?_, fun same => ?_⟩ <;>
          · rw [Option.some.inj same] at mark
            exact absurd mark (by decide)
      rw [Mantissa.read?_of_readSign whole fraction some stop point (signed.readSign unsigned),
        readExponent?_iff.mpr raised]
      rfl

theorem Denotes.mono {digit' : Char → Bool} (h : Denotes digit cs n)
    (wider : ∀ c, digit c = true → digit' c = true) : Denotes digit' cs n := by
  have all {ds : List Char} (digits : ds.all digit = true) : ds.all digit' = true :=
    List.all_eq_true.mpr fun c member => wider c (List.all_eq_true.mp digits c member)
  cases h with
  | intro signed whole fraction some raised =>
    refine .intro signed (all whole) (fun ds member => all (fraction ds member)) some ?_
    cases raised with
    | absent => exact .absent
    | written letter signed some digits => exact .written letter signed some (all digits)

end Spreadsheet.Numeral
