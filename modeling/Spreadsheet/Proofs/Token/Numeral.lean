import Spreadsheet.Proofs.Token.Lexeme
import Spreadsheet.Proofs.Token.Word

namespace Spreadsheet.Token

variable {cs exponent : List Char} {m : Mantissa} {number : String}

/-- Digits and a point with no digit after it but those of an exponent. -/
def IsPointed (cs : List Char) : Prop :=
  ∃ whole exponent,
    cs = whole ++ '.' :: exponent ∧ whole ≠ [] ∧ whole.all Char.isDigit = true ∧
    exponent ≠ [] ∧ IsExponent exponent

theorem isNumber_iff :
    IsNumber cs ↔
      ∃ (m : Mantissa) (exponent : List Char),
        m.Writes exponent ∧ m.fraction ≠ some [] ∧ cs = m.chars ++ exponent := by
  constructor
  · rintro ⟨whole, fraction, exponent, rfl, digits, ⟨rfl, some⟩ | ⟨ds, rfl, some, digits'⟩, power⟩
    · refine ⟨⟨whole, none⟩, exponent, ⟨digits, nofun, ?_, power, nofun⟩, nofun, ?_⟩
      · simp [Mantissa.hasDigits, some]
      · simp [Mantissa.chars]
    · refine ⟨⟨whole, .some ds⟩, exponent, ⟨digits, ?_, ?_, power, ?_⟩, by simpa using some, rfl⟩
      · rintro _ ⟨⟩
        exact digits'
      · simp [Mantissa.hasDigits, some]
      · intro empty
        exact absurd (Option.some.inj empty) some
  · rintro ⟨⟨whole, fraction⟩, exponent, writes, some, rfl⟩
    cases fraction with
    | none =>
      refine ⟨whole, [], exponent, by simp [Mantissa.chars], writes.whole, .inl ⟨rfl, ?_⟩,
        writes.power⟩
      simpa [Mantissa.hasDigits] using writes.digits
    | some ds =>
      exact ⟨whole, '.' :: ds, exponent, rfl, writes.whole,
        .inr ⟨ds, rfl, by simpa using some, writes.fraction ds rfl⟩, writes.power⟩

theorem isPointed_iff :
    IsPointed cs ↔
      ∃ (m : Mantissa) (exponent : List Char),
        m.Writes exponent ∧ m.fraction = some [] ∧ cs = m.chars ++ exponent := by
  constructor
  · rintro ⟨whole, exponent, rfl, some, digits, power, shape⟩
    refine ⟨⟨whole, .some []⟩, exponent, ⟨digits, ?_, ?_, shape, fun _ => power⟩, rfl, ?_⟩
    · rintro _ ⟨⟩
      rfl
    · simp [Mantissa.hasDigits, some]
    · simp [Mantissa.chars]
  · rintro ⟨⟨whole, fraction⟩, exponent, writes, rfl, rfl⟩
    refine ⟨whole, exponent, by simp [Mantissa.chars], ?_, writes.whole, writes.point rfl,
      writes.power⟩
    simpa [Mantissa.hasDigits] using writes.digits

theorem Mantissa.Writes.scan_eq (h : m.Writes exponent) :
    Mantissa.scan (m.chars ++ exponent) = (m, exponent) := by
  have ends : (Kind.number "").Ends [] := rfl
  obtain ⟨stop, point⟩ := h.power.head? ends
  rw [List.append_nil] at stop point
  exact Mantissa.scan_chars h.whole h.fraction stop point

theorem IsPointed.not_isNumber (h : IsPointed cs) : ¬ IsNumber cs := by
  intro number
  obtain ⟨m, exponent, writes, empty, rfl⟩ := isPointed_iff.mp h
  obtain ⟨m', exponent', writes', some, same⟩ := isNumber_iff.mp number
  -- Both mantissas are the one that is scanned.
  have scanned := writes.scan_eq
  rw [same, writes'.scan_eq] at scanned
  cases scanned
  exact some empty

theorem spells_number_iff :
    Spells number.toList (.number number) ↔ IsNumber number.toList ∨ IsPointed number.toList := by
  rw [isNumber_iff, isPointed_iff]
  constructor
  · intro h
    obtain ⟨m, exponent, writes, whole⟩ := h.exists_writes
    by_cases empty : m.fraction = some []
    · exact .inr ⟨m, exponent, writes, empty, whole⟩
    · exact .inl ⟨m, exponent, writes, empty, whole⟩
  · intro shapes
    have parts : ∃ (m : Mantissa) (exponent : List Char),
        m.Writes exponent ∧ number.toList = m.chars ++ exponent := by
      rcases shapes with ⟨m, exponent, writes, -, whole⟩ | ⟨m, exponent, writes, -, whole⟩
      · exact ⟨m, exponent, writes, whole⟩
      · exact ⟨m, exponent, writes, whole⟩
    obtain ⟨m, exponent, writes, whole⟩ := parts
    have spells := Spells.number writes
    rwa [← whole, String.ofList_toList] at spells

/-- The texts of number tokens: the shapes of numbers, and those that have an exponent right after
    their point. -/
theorem exists_number_token_iff :
    (∃ text ts t, tokenize text = .ok ts ∧ t ∈ ts ∧ t.kind = .number number) ↔
      IsNumber number.toList ∨ IsPointed number.toList := by
  rw [← spells_number_iff]
  constructor
  · rintro ⟨text, ts, t, tokens, member, kind⟩
    obtain ⟨spelling, spells⟩ := exists_spells_of_tokenize tokens member
    rw [kind] at spells
    exact spells.eq_number ▸ spells
  · intro spells
    obtain ⟨position, tokens⟩ := exists_tokenize spells
    exact ⟨number, _, _, tokens, List.mem_cons_self, rfl⟩

theorem not_isNumber_of_bare_point :
    tokenize "1.e5" = .ok [⟨.number "1.e5", 0⟩] ∧ ¬ IsNumber "1.e5".toList := by
  have pointed : IsPointed "1.e5".toList := by
    refine ⟨['1'], ['e', '5'], by decide, nofun, rfl, nofun, .inr ⟨'e', [], ['5'], rfl, ?_⟩⟩
    decide
  exact ⟨by cbv, pointed.not_isNumber⟩

end Spreadsheet.Token
