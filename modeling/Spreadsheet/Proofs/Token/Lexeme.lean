import Spreadsheet.Formula.Parse
import Spreadsheet.Proofs.Token.Spelling

namespace Spreadsheet.Token

/-- A token of a text as it is written, with the blanks in front of it. -/
structure Lexeme where
  gap : List Char
  spelling : List Char
  kind : Kind

namespace Lexeme

structure Valid (x : Lexeme) : Prop where
  blank : x.gap.all Text.isBlank = true
  spells : Spells x.spelling x.kind

def join : List Lexeme → List Char → List Char
  | [], last => last
  | x :: xs, last => x.gap ++ (x.spelling ++ join xs last)

/-- No lexeme is read on into what follows it. -/
def Apart : List Lexeme → List Char → Prop
  | [], _ => True
  | x :: xs, last => x.kind.Ends (join xs last) ∧ Apart xs last

/-- No lexeme but a number stops short of more of it. -/
def Greedy : List Lexeme → List Char → Prop
  | [], _ => True
  | x :: xs, last =>
    (x.kind.category ≠ .number → x.kind.Ends (join xs last)) ∧ Greedy xs last

def tokens (position : Nat) : List Lexeme → List Token
  | [] => []
  | x :: xs =>
    ⟨x.kind, position + x.gap.length⟩ ::
      tokens (position + x.gap.length + x.spelling.length) xs

@[simp] theorem kinds_tokens (position : Nat) (xs : List Lexeme) :
    (tokens position xs).map (·.kind) = xs.map Lexeme.kind := by
  induction xs generalizing position with
  | nil => rfl
  | cons x xs ih => simp [tokens, ih]

variable {xs : List Lexeme} {x : Lexeme} {last : List Char}

theorem join_append (xs : List Lexeme) (last after : List Char) :
    join xs (last ++ after) = join xs last ++ after := by
  induction xs with
  | nil => rfl
  | cons x xs ih => simp only [join, ih, List.append_assoc]

end Lexeme

open Lexeme

variable {position : Nat} {cs rest gap last : List Char} {c : Char} {kind : Kind} {ts : List Token}
  {xs : List Lexeme} {x : Lexeme}

theorem Spells.length_text {spelling : List Char} (h : Spells spelling kind) :
    kind.text.length = spelling.length := by
  cases h with
  | word h =>
    rcases Kind.ofWord_cases spelling with ⟨b, boolean⟩ | identifier
    · have size := congrArg List.length (Kind.map_toUpper_of_boolean boolean)
      rw [List.length_map, String.length_toList] at size
      rw [boolean, size]
    · rw [identifier]
      exact String.length_ofList
  | number h => exact String.length_ofList
  | operator op => exact String.length_toList.symm
  | leftParen | rightParen | comma => rfl

theorem lex_gap (blank : gap.all Text.isBlank = true) (position : Nat) (cs : List Char) :
    lex position (gap ++ cs) = lex (position + gap.length) cs := by
  induction gap generalizing position with
  | nil => rfl
  | cons c gap ih =>
    simp only [List.all_cons, Bool.and_eq_true] at blank
    rw [List.cons_append, lex, if_pos blank.1, ih blank.2, List.length_cons]
    congr 1
    omega

theorem lex_scan (mark : Text.isBlank c = false)
    (scanned : scan position (c :: cs) = ⟨.ok kind, rest⟩) :
    lex position (c :: cs) =
      ⟨(lex (position + kind.text.length) rest).outcome.map (⟨kind, position⟩ :: ·),
        (lex (position + kind.text.length) rest).rest⟩ := by
  rw [lex, if_neg (by simp [mark])]
  split
  · rename_i outcome
    rw [scanned] at outcome
    cases outcome
  · rename_i outcome
    rw [scanned] at outcome
    cases outcome
    rw [scanned]

/-- The tokens of lexemes that are apart are read from their text. -/
theorem lex_join (valid : ∀ x ∈ xs, x.Valid) (apart : Apart xs last)
    (blank : last.all Text.isBlank = true) (position : Nat) :
    lex position (join xs last) = ⟨.ok (tokens position xs), []⟩ := by
  induction xs generalizing position with
  | nil =>
    have none := lex_gap blank position []
    rw [List.append_nil] at none
    rw [join, none, lex]
    rfl
  | cons x xs ih =>
    have spells := (valid x List.mem_cons_self).spells
    obtain ⟨c, cs, head⟩ := List.exists_cons_of_ne_nil spells.ne_nil
    have mark : Text.isBlank c = false := (spells.isMark (by simp [head])).not_isBlank
    have scanned := scan_of_spells spells apart.1 (position + x.gap.length)
    have others := ih (fun y member => valid y (List.mem_cons_of_mem _ member)) apart.2
      (position + x.gap.length + x.spelling.length)
    rw [join, lex_gap (valid x List.mem_cons_self).blank]
    rw [head, List.cons_append] at scanned ⊢
    rw [lex_scan mark scanned, spells.length_text, others, tokens]
    rfl

/-- A text whose tokens are read is made of lexemes. -/
theorem exists_join_of_lex (h : (lex position cs).outcome = .ok ts) :
    ∃ xs last, (∀ x ∈ xs, x.Valid) ∧ Greedy xs last ∧ last.all Text.isBlank = true ∧
      cs = join xs last ∧ ts = tokens position xs := by
  induction position, cs using lex.induct generalizing ts with
  | case1 position =>
    rw [lex] at h
    cases h
    exact ⟨[], [], nofun, trivial, rfl, rfl, rfl⟩
  | case2 position c tail blank ih =>
    rw [lex, if_pos blank] at h
    obtain ⟨xs, last, valid, greedy, blanks, rfl, rfl⟩ := ih h
    cases xs with
    | nil => exact ⟨[], c :: last, nofun, trivial, by simpa [blank] using blanks, rfl, rfl⟩
    | cons x xs =>
      have first := valid x List.mem_cons_self
      refine ⟨{ x with gap := c :: x.gap } :: xs, last, ?_, greedy, blanks, rfl, ?_⟩
      · intro y member
        rcases List.mem_cons.mp member with rfl | member
        · exact ⟨by simpa [blank] using first.blank, first.spells⟩
        · exact valid y (List.mem_cons_of_mem _ member)
      · have start : position + 1 + x.gap.length = position + (c :: x.gap).length := by
          rw [List.length_cons]
          omega
        simp only [tokens, start]
  | case3 position c tail mark f scanned =>
    rw [lex, if_neg mark] at h
    split at h
    · cases h
    · rename_i outcome
      rw [scanned] at outcome
      cases outcome
  | case4 position c tail mark kind scanned ih =>
    obtain ⟨spelling, whole, spells⟩ := scan_spells scanned
    have scan_eq : scan position (c :: tail) = ⟨.ok kind, (scan position (c :: tail)).rest⟩ := by
      rw [← scanned]
    rw [lex_scan (by simpa using mark) scan_eq] at h
    cases others : (lex (position + kind.text.length) (scan position (c :: tail)).rest).outcome with
    | error f =>
      rw [others] at h
      cases h
    | ok us =>
      rw [others] at h
      cases h
      obtain ⟨xs, last, valid, greedy, blanks, rest, rfl⟩ := ih others
      have ends : kind.category ≠ .number → kind.Ends (join xs last) :=
        fun other => rest ▸ scan_ends scanned other
      refine ⟨⟨[], spelling, kind⟩ :: xs, last, ?_, ⟨ends, greedy⟩, blanks, ?_, ?_⟩
      · intro y member
        rcases List.mem_cons.mp member with rfl | member
        · exact ⟨rfl, spells⟩
        · exact valid y member
      · rw [whole, rest]
        rfl
      · simp only [tokens, spells.length_text]
        rfl

theorem Kind.Ends.of_append {after : List Char} (h : kind.Ends (rest ++ after)) :
    kind.Ends rest := by
  cases rest with
  | cons c rest => exact h
  | nil =>
    unfold Kind.Ends
    split
    · rfl
    · rfl
    · rfl
    · exact ⟨nofun, nofun⟩
    · exact nofun
    · trivial

namespace Lexeme

theorem Apart.of_append {after : List Char} (h : Apart xs (last ++ after)) : Apart xs last := by
  induction xs with
  | nil => trivial
  | cons x xs ih =>
    refine ⟨?_, ih h.2⟩
    have ends := h.1
    rw [join_append] at ends
    exact ends.of_append

theorem head?_join (spells : Spells x.spelling x.kind) (none : x.gap = []) :
    (join (x :: xs) last).head?.any Text.isBlank = false := by
  obtain ⟨c, cs, head⟩ := List.exists_cons_of_ne_nil spells.ne_nil
  rw [join, none, head]
  exact (spells.isMark (by simp [head])).not_isBlank

theorem getLast?_join (valid : ∀ x ∈ xs, x.Valid) :
    (join xs []).getLast?.any Text.isBlank = false := by
  induction xs with
  | nil => rfl
  | cons x xs ih =>
    have spells := (valid x List.mem_cons_self).spells
    rw [join, ← List.append_assoc, List.getLast?_append]
    cases others : (join xs []).getLast? with
    | some c =>
      have mark := ih fun y member => valid y (List.mem_cons_of_mem _ member)
      rw [others] at mark
      exact mark
    | none =>
      rw [Option.none_or, List.getLast?_append]
      cases final : x.spelling.getLast? with
      | none => exact absurd (List.getLast?_eq_none_iff.mp final) spells.ne_nil
      | some c => exact (spells.isMark (List.mem_of_getLast? final)).not_isBlank

end Lexeme

theorem exists_join_of_tokenize {text : String} (h : tokenize text = .ok ts) :
    ∃ xs last, (∀ x ∈ xs, x.Valid) ∧ last.all Text.isBlank = true ∧ text.toList = join xs last ∧
      ts.map (·.kind) = xs.map Lexeme.kind := by
  obtain ⟨lead, trail, whole, before, after⟩ := Text.exists_strip text.toList
  obtain ⟨xs, last, valid, -, blank, stripped, rfl⟩ := exists_join_of_lex h
  have blanks : (last ++ trail).all Text.isBlank = true := by
    rw [List.all_append, blank, after]
    rfl
  rw [stripped, ← join_append] at whole
  cases xs with
  | nil =>
    refine ⟨[], lead ++ (last ++ trail), nofun, ?_, whole, rfl⟩
    rw [List.all_append, before, blanks]
    rfl
  | cons x xs =>
    have first := valid x List.mem_cons_self
    refine ⟨{ x with gap := lead ++ x.gap } :: xs, last ++ trail, ?_, blanks, ?_, by simp⟩
    · intro y member
      rcases List.mem_cons.mp member with rfl | member
      · exact ⟨by rw [List.all_append, before, first.blank]; rfl, first.spells⟩
      · exact valid y (List.mem_cons_of_mem _ member)
    · rw [whole]
      simp only [join, List.append_assoc]

theorem exists_spells_of_tokenize {text : String} {t : Token} (h : tokenize text = .ok ts)
    (member : t ∈ ts) : ∃ spelling, Spells spelling t.kind := by
  obtain ⟨xs, last, valid, -, -, kinds⟩ := exists_join_of_tokenize h
  have shown : t.kind ∈ xs.map Lexeme.kind := kinds ▸ List.mem_map_of_mem member
  obtain ⟨x, inside, same⟩ := List.mem_map.mp shown
  exact ⟨x.spelling, same ▸ (valid x inside).spells⟩

section Blanks

variable {lead : List Char} (valid : ∀ x ∈ xs, x.Valid) (flush : ∀ x ∈ xs.head?, x.gap = [])
  (before : lead.all Text.isBlank = true) (after : last.all Text.isBlank = true)

include valid flush before after

theorem strip_join : Text.strip (lead ++ join xs last) = join xs [] := by
  have front : (join xs []).head?.any Text.isBlank = false := by
    cases xs with
    | nil => rfl
    | cons x xs => exact head?_join (valid x List.mem_cons_self).spells (flush x rfl)
  have whole := Text.strip_append before after front (getLast?_join valid)
  rwa [← join_append] at whole

theorem tokenize_append (apart : Apart xs last) :
    tokenize (String.ofList (lead ++ join xs last)) = .ok (tokens 0 xs) := by
  have ends : Apart xs ([] ++ last) := apart
  rw [tokenize, lexText, String.toList_ofList, strip_join valid flush before after,
    lex_join valid ends.of_append rfl]

end Blanks

theorem tokenize_join (valid : ∀ x ∈ xs, x.Valid) (apart : Apart xs last)
    (blank : last.all Text.isBlank = true) :
    ∃ ts, tokenize (String.ofList (join xs last)) = .ok ts ∧
      ts.map (·.kind) = xs.map Lexeme.kind := by
  cases xs with
  | nil =>
    have none : ∀ x ∈ ([] : List Lexeme).head?, x.gap = [] := nofun
    have before : ([] : List Char).all Text.isBlank = true := rfl
    have read := tokenize_append valid none before blank apart
    rw [List.nil_append] at read
    exact ⟨[], read, rfl⟩
  | cons x xs =>
    have first := valid x List.mem_cons_self
    let xs' : List Lexeme := { x with gap := [] } :: xs
    have valid' : ∀ y ∈ xs', y.Valid := by
      intro y member
      rcases List.mem_cons.mp member with rfl | member
      · exact ⟨rfl, first.spells⟩
      · exact valid y (List.mem_cons_of_mem _ member)
    have flush : ∀ y ∈ xs'.head?, y.gap = [] := by
      rintro y ⟨⟩
      rfl
    have read := tokenize_append valid' flush first.blank blank apart
    have whole : x.gap ++ join xs' last = join (x :: xs) last := rfl
    rw [whole] at read
    exact ⟨tokens 0 xs', read, by simp [xs']⟩

theorem Kind.ends_nil (kind : Kind) : kind.Ends [] := by
  unfold Kind.Ends
  split <;> simp

theorem exists_tokenize {text : String} (h : Spells text.toList kind) :
    ∃ position, tokenize text = .ok [⟨kind, position⟩] := by
  have valid : ∀ x ∈ [Lexeme.mk [] text.toList kind], x.Valid := by
    intro x member
    rw [List.mem_singleton.mp member]
    exact ⟨rfl, h⟩
  have apart : Apart [⟨[], text.toList, kind⟩] [] := ⟨kind.ends_nil, trivial⟩
  obtain ⟨ts, tokens, kinds⟩ := tokenize_join valid apart rfl
  obtain ⟨⟨kind, position⟩, rfl, same⟩ := List.map_eq_singleton_iff.mp kinds
  cases same
  rw [join, join, List.append_nil, List.nil_append, String.ofList_toList] at tokens
  exact ⟨position, tokens⟩

end Spreadsheet.Token
