import Spreadsheet.Proofs.Token.Numeral

namespace Spreadsheet.Token

variable {kind : Kind} {gap lead last : List Char} {c : Char} {parts : List (List Char × Kind)}

theorem Kind.IsLexeme.spells (h : kind.IsLexeme) : Spells kind.text.toList kind := by
  cases kind with
  | number text => exact spells_number_iff.mpr (.inl h)
  | identifier name =>
    have spells := Spells.word h.1
    rcases Kind.ofWord_cases name.toList with ⟨b, boolean⟩ | identifier
    · exact absurd (Kind.map_toUpper_of_boolean boolean) (h.2 b)
    · rwa [identifier, String.ofList_toList] at spells
  | boolean b => exact spells_boolean b
  | operator op => exact .operator op
  | leftParen => exact .leftParen
  | rightParen => exact .rightParen
  | comma => exact .comma

theorem ends_of_isBlank (blank : Text.isBlank c = true) (kind : Kind) (rest : List Char) :
    kind.Ends (c :: rest) := by
  have word := not_isWordChar_of_isBlank blank
  have digit : c.isDigit = false := by
    simp only [isWordChar, Char.isAlphanum, Bool.or_eq_false_iff] at word
    exact word.1.1.2
  have other : ∀ d ∈ ['.', 'e', 'E', '=', '>'], c ≠ d := by
    have marks : ∀ d ∈ ['.', 'e', 'E', '=', '>'], 0x21 ≤ d.toNat ∧ d.toNat ≤ 0x7E := by simp
    exact fun d member => ne_of_isBlank blank (marks d member)
  unfold Kind.Ends
  split
  · simp [digit, other]
  · exact word
  · exact word
  · simp [other]
  · simp [other]
  · trivial

def Lexeme.ofPart (part : List Char × Kind) : Lexeme := ⟨part.1, part.2.text.toList, part.2⟩

theorem join_ofPart (parts : List (List Char × Kind)) (last : List Char) :
    Lexeme.join (parts.map Lexeme.ofPart) last = render parts last := by
  induction parts with
  | nil => rfl
  | cons part parts ih =>
    rw [List.map_cons, Lexeme.join, ih, render, List.append_assoc]
    rfl

theorem tokens_ofPart (position : Nat) (parts : List (List Char × Kind)) :
    Lexeme.tokens position (parts.map Lexeme.ofPart) = placed position parts := by
  induction parts generalizing position with
  | nil => rfl
  | cons part parts ih =>
    rw [List.map_cons, Lexeme.tokens, ih]
    rfl

theorem apart_ofPart (blank : ∀ part ∈ parts, part.1.all Text.isBlank = true)
    (parted : ∀ part ∈ parts.tail, part.1 ≠ []) (after : last.all Text.isBlank = true) :
    Lexeme.Apart (parts.map Lexeme.ofPart) last := by
  induction parts with
  | nil => trivial
  | cons part parts ih =>
    have others : ∀ part ∈ parts, part.1.all Text.isBlank = true :=
      fun part member => blank part (List.mem_cons_of_mem _ member)
    refine ⟨?_, ih others fun part member => parted part (List.mem_of_mem_tail member)⟩
    rw [join_ofPart]
    -- A token ends at the first blank of the next gap, or of the end, or where the text ends.
    cases parts with
    | nil =>
      cases last with
      | nil => exact Kind.ends_nil _
      | cons c last =>
        simp only [List.all_cons, Bool.and_eq_true] at after
        exact ends_of_isBlank after.1 _ last
    | cons next parts =>
      have gap := others next List.mem_cons_self
      obtain ⟨c, cs, start⟩ := List.exists_cons_of_ne_nil (parted next List.mem_cons_self)
      rw [start] at gap
      simp only [List.all_cons, Bool.and_eq_true] at gap
      rw [render, start]
      exact ends_of_isBlank gap.1 _ _

theorem slice_placed (before : List Char) (parts : List (List Char × Kind)) (last : List Char) :
    ∀ t ∈ placed before.length parts, slice (before ++ render parts last) t = t.text.toList := by
  -- The text in front of the parts grows by a gap and a token in each step.
  induction parts generalizing before with
  | nil => nofun
  | cons part parts ih =>
    have start : before.length + part.1.length = (before ++ part.1).length :=
      List.length_append.symm
    have next : before.length + part.1.length + part.2.text.toList.length =
        (before ++ part.1 ++ part.2.text.toList).length := by
      rw [List.length_append, start]
    intro t member
    rw [render, ← List.append_assoc, ← List.append_assoc]
    rcases List.mem_cons.mp member with rfl | member
    · rw [slice, List.append_assoc]
      dsimp only [text]
      rw [start, List.drop_left, List.take_left]
    · rw [next] at member
      exact ih _ t member

/-- Tokens that are written with blanks between them are read back, each one where it stands in the
    text without the blanks at its ends. -/
theorem tokenize_render (lexemes : ∀ part ∈ parts, part.2.IsLexeme)
    (blank : ∀ part ∈ parts, part.1.all Text.isBlank = true)
    (flush : ∀ part ∈ parts.head?, part.1 = []) (parted : ∀ part ∈ parts.tail, part.1 ≠ [])
    (before : lead.all Text.isBlank = true) (after : last.all Text.isBlank = true) :
    Text.strip (lead ++ render parts last) = render parts [] ∧
      tokenize (String.ofList (lead ++ render parts last)) = .ok (placed 0 parts) ∧
      (placed 0 parts).map (·.kind) = parts.map Prod.snd ∧
      ∀ t ∈ placed 0 parts, slice (render parts []) t = t.text.toList := by
  have valid : ∀ x ∈ parts.map Lexeme.ofPart, x.Valid := by
    intro x member
    obtain ⟨part, inside, same⟩ := List.mem_map.mp member
    rw [← same]
    exact ⟨blank part inside, (lexemes part inside).spells⟩
  have first : ∀ x ∈ (parts.map Lexeme.ofPart).head?, x.gap = [] := by
    intro x member
    rw [List.head?_map] at member
    obtain ⟨part, inside, same⟩ := Option.map_eq_some_iff.mp member
    rw [← same]
    exact flush part inside
  have stripped := strip_join valid first before after
  have tokens := tokenize_append valid first before after (apart_ofPart blank parted after)
  rw [join_ofPart, join_ofPart] at stripped
  rw [join_ofPart, tokens_ofPart] at tokens
  exact ⟨stripped, tokens, placed_kinds 0 parts, slice_placed [] parts []⟩

theorem tokenize_render_of_blanks :
    let parts : List (List Char × Kind) :=
      [([], .number ".5E-3"), (['\t', ' '], .operator .lessEqual), (['\n'], .identifier "$_a1"),
        ([' '], .boolean true), ([' '], .comma)]
    (∀ part ∈ parts, part.2.IsLexeme) ∧
      (∀ part ∈ parts, part.1.all Text.isBlank = true) ∧
      (∀ part ∈ parts.head?, part.1 = []) ∧ (∀ part ∈ parts.tail, part.1 ≠ []) ∧
      [' '].all Text.isBlank = true ∧ ['\n'].all Text.isBlank = true ∧
      [' '] ++ render parts ['\n'] = " .5E-3\t <=\n$_a1 TRUE ,\n".toList ∧
      tokenize (String.ofList ([' '] ++ render parts ['\n'])) =
        .ok [⟨.number ".5E-3", 0⟩, ⟨.operator .lessEqual, 7⟩, ⟨.identifier "$_a1", 10⟩,
          ⟨.boolean true, 15⟩, ⟨.comma, 20⟩] := by
  intro parts
  have number : (Kind.number ".5E-3").IsLexeme := by
    refine ⟨[], ".5".toList, "E-3".toList, by decide, rfl, .inr ⟨['5'], by decide⟩, ?_⟩
    exact .inr ⟨'E', ['-'], ['3'], by decide⟩
  have word : (Kind.identifier "$_a1").IsLexeme := ⟨⟨by decide, by decide⟩, by decide⟩
  have lexemes : ∀ part ∈ parts, part.2.IsLexeme := by
    simp only [parts, List.forall_mem_cons]
    exact ⟨number, trivial, word, trivial, trivial, nofun⟩
  have blank : ∀ part ∈ parts, part.1.all Text.isBlank = true := by decide
  have flush : ∀ part ∈ parts.head?, part.1 = [] := by decide
  have parted : ∀ part ∈ parts.tail, part.1 ≠ [] := by decide
  have before : [' '].all Text.isBlank = true := by decide
  have after : ['\n'].all Text.isBlank = true := by decide
  exact ⟨lexemes, blank, flush, parted, before, after, by decide,
    (tokenize_render lexemes blank flush parted before after).2.1⟩

end Spreadsheet.Token
