import Spreadsheet.Proofs.Token.Lexeme
import Spreadsheet.Proofs.Token.Word

namespace Spreadsheet.Token

variable {before rest spelling last : List Char} {kind : Kind} {ts : List Token} {xs : List Lexeme}
  {position i : Nat} {c : Char}

def stop (t : Token) : Nat := t.position + t.text.length

def Covers (t : Token) (i : Nat) : Prop := t.position ≤ i ∧ i < t.stop

/-- A token is a part of a text, as it is written there and not shorter than it can be read. -/
structure StandsIn (t : Token) (cs : List Char) : Prop where
  nonempty : t.position < t.stop
  inside : t.stop ≤ cs.length
  asWritten : t.category ≠ .boolean → slice cs t = t.text.toList
  capitals : t.category = .boolean → Text.upperChars (slice cs t) = t.text.toList
  word : t.category = .identifier ∨ t.category = .boolean →
    (cs.drop t.stop).head?.any isWordChar = false
  less : t.kind = .operator .less →
    (cs.drop t.stop).head? ≠ some '=' ∧ (cs.drop t.stop).head? ≠ some '>'
  greater : t.kind = .operator .greater → (cs.drop t.stop).head? ≠ some '='

/-- The tokens are parts of a text from left to right, with nothing but blanks beside them. -/
structure Tile (ts : List Token) (cs : List Char) : Prop where
  stands : ∀ t ∈ ts, t.StandsIn cs
  increasing : ts.Pairwise fun t u => t.position < u.position
  disjoint : ts.Pairwise fun t u => t.stop ≤ u.position
  blank : ∀ i c, cs[i]? = some c → (∀ t ∈ ts, ¬ t.Covers i) → Text.isBlank c = true

theorem Spells.upperChars_of_boolean (h : Spells spelling kind)
    (boolean : kind.category = .boolean) : Text.upperChars spelling = kind.text.toList := by
  cases h with
  | word h =>
    rcases Kind.ofWord_cases spelling with ⟨b, same⟩ | identifier
    · rw [h.upperChars_eq_map, same]
      exact Kind.map_toUpper_of_boolean same
    · rw [identifier] at boolean
      cases boolean
  | number _ | operator | leftParen | rightParen | comma => cases boolean

theorem stop_mk (spells : Spells spelling kind) :
    (Token.mk kind position).stop = position + spelling.length := by
  rw [stop, ← spells.length_text]
  rfl

theorem slice_append (spells : Spells spelling kind) :
    slice (before ++ (spelling ++ rest)) ⟨kind, before.length⟩ = spelling := by
  rw [slice, List.drop_left, String.length_toList]
  exact List.take_left' spells.length_text.symm

theorem standsIn_append (before : List Char) (spells : Spells spelling kind)
    (ends : kind.category ≠ .number → kind.Ends rest) :
    StandsIn ⟨kind, before.length⟩ (before ++ (spelling ++ rest)) := by
  have stop : (Token.mk kind before.length).stop = before.length + spelling.length := stop_mk spells
  have after : (before ++ (spelling ++ rest)).drop (Token.mk kind before.length).stop = rest := by
    rw [stop, List.drop_length_add_append, List.drop_left]
  have some := List.length_pos_iff.mpr spells.ne_nil
  constructor
  case nonempty => rw [stop]; dsimp only; omega
  case inside => rw [stop, List.length_append, List.length_append]; omega
  case asWritten =>
    intro other
    rw [slice_append spells]
    refine spells.eq_text.resolve_left ?_
    rintro ⟨b, rfl⟩
    exact other rfl
  case capitals =>
    intro boolean
    rw [slice_append spells]
    exact spells.upperChars_of_boolean boolean
  case word =>
    rw [after]
    cases kind with
    | identifier name => exact fun _ => ends nofun
    | boolean b => exact fun _ => ends nofun
    | number _ | operator _ | leftParen | rightParen | comma => nofun
  case less =>
    rw [after]
    rintro ⟨⟩
    exact ends nofun
  case greater =>
    rw [after]
    rintro ⟨⟩
    exact ends nofun

namespace Lexeme

theorem standsIn_tokens (valid : ∀ x ∈ xs, x.Valid) (greedy : Greedy xs last)
    (before : List Char) : ∀ t ∈ tokens before.length xs, t.StandsIn (before ++ join xs last) := by
  induction xs generalizing before with
  | nil => nofun
  | cons x xs ih =>
    have lead : before.length + x.gap.length = (before ++ x.gap).length :=
      List.length_append.symm
    have next : before.length + x.gap.length + x.spelling.length =
      (before ++ x.gap ++ x.spelling).length := by rw [List.length_append, lead]
    have others := ih (fun y member => valid y (List.mem_cons_of_mem _ member)) greedy.2
      (before ++ x.gap ++ x.spelling)
    intro t member
    rcases List.mem_cons.mp member with rfl | member
    · have first := standsIn_append (before ++ x.gap) (valid x List.mem_cons_self).spells greedy.1
      rw [lead, join, ← List.append_assoc]
      exact first
    · rw [next] at member
      have stands := others t member
      simpa only [join, List.append_assoc] using stands

theorem le_position (position : Nat) (xs : List Lexeme) :
    ∀ t ∈ tokens position xs, position ≤ t.position := by
  induction xs generalizing position with
  | nil => nofun
  | cons x xs ih =>
    intro t member
    rcases List.mem_cons.mp member with rfl | member
    · exact Nat.le_add_right _ _
    · have le := ih (position + x.gap.length + x.spelling.length) t member
      omega

theorem pairwise_tokens (valid : ∀ x ∈ xs, x.Valid) (position : Nat) :
    (tokens position xs).Pairwise fun t u => t.stop ≤ u.position := by
  induction xs generalizing position with
  | nil => exact .nil
  | cons x xs ih =>
    refine .cons (fun u member => ?_) (ih (fun y member => valid y (List.mem_cons_of_mem _ member)) _)
    rw [stop_mk (valid x List.mem_cons_self).spells]
    exact le_position _ _ u member

theorem isBlank_of_not_covered (valid : ∀ x ∈ xs, x.Valid) (blank : last.all Text.isBlank = true)
    (position : Nat) (here : (join xs last)[i]? = some c)
    (free : ∀ t ∈ tokens position xs, ¬ t.Covers (position + i)) : Text.isBlank c = true := by
  induction xs generalizing position i with
  | nil => exact List.all_eq_true.mp blank c (List.mem_of_getElem? here)
  | cons x xs ih =>
    have first := valid x List.mem_cons_self
    by_cases gap : i < x.gap.length
    · rw [join, List.getElem?_append_left gap] at here
      exact List.all_eq_true.mp first.blank c (List.mem_of_getElem? here)
    · have left := free _ List.mem_cons_self
      rw [Covers, stop_mk first.spells] at left
      dsimp only at left
      rw [join, List.getElem?_append_right (by omega), List.getElem?_append_right (by omega)] at here
      have same : position + x.gap.length + x.spelling.length +
        (i - x.gap.length - x.spelling.length) = position + i := by omega
      refine ih (fun y member => valid y (List.mem_cons_of_mem _ member))
        (position + x.gap.length + x.spelling.length) here fun t member => ?_
      rw [same]
      exact free t (List.mem_cons_of_mem _ member)

end Lexeme

/-- Tokenizing loses and invents nothing: the tokens are the parts of the stripped text that are
    not blank, each one read on as far as it goes. -/
theorem tile_of_tokenize {text : String} (h : tokenize text = .ok ts) :
    Tile ts (Text.strip text.toList) := by
  obtain ⟨xs, last, valid, greedy, blank, whole, rfl⟩ := exists_join_of_lex h
  rw [whole]
  have stands := Lexeme.standsIn_tokens valid greedy []
  have disjoint := Lexeme.pairwise_tokens valid 0
  refine ⟨stands, ?_, disjoint, fun i c here free => ?_⟩
  · refine disjoint.imp_of_mem fun first _ le => ?_
    exact Nat.lt_of_lt_of_le (stands _ first).nonempty le
  · refine Lexeme.isBlank_of_not_covered valid blank 0 here fun t member => ?_
    rw [Nat.zero_add]
    exact free t member

/-- Blanks at both ends and inside, a truth value in small letters, and operators whose beginnings
    are operators too. -/
theorem tile_of_tokenize_of_blanks :
    tokenize " true<=1.5e3 >A1\t<> $b$2 < 2 " =
        .ok [⟨.boolean true, 0⟩, ⟨.operator .lessEqual, 4⟩, ⟨.number "1.5e3", 6⟩,
          ⟨.operator .greater, 12⟩, ⟨.identifier "A1", 13⟩, ⟨.operator .notEqual, 16⟩,
          ⟨.identifier "$b$2", 19⟩, ⟨.operator .less, 24⟩, ⟨.number "2", 26⟩] ∧
      Tile [⟨.boolean true, 0⟩, ⟨.operator .lessEqual, 4⟩, ⟨.number "1.5e3", 6⟩,
          ⟨.operator .greater, 12⟩, ⟨.identifier "A1", 13⟩, ⟨.operator .notEqual, 16⟩,
          ⟨.identifier "$b$2", 19⟩, ⟨.operator .less, 24⟩, ⟨.number "2", 26⟩]
        (Text.strip " true<=1.5e3 >A1\t<> $b$2 < 2 ".toList) := by
  have read : tokenize " true<=1.5e3 >A1\t<> $b$2 < 2 " =
      .ok [⟨.boolean true, 0⟩, ⟨.operator .lessEqual, 4⟩, ⟨.number "1.5e3", 6⟩,
        ⟨.operator .greater, 12⟩, ⟨.identifier "A1", 13⟩, ⟨.operator .notEqual, 16⟩,
        ⟨.identifier "$b$2", 19⟩, ⟨.operator .less, 24⟩, ⟨.number "2", 26⟩] := by cbv
  exact ⟨read, tile_of_tokenize read⟩

end Spreadsheet.Token
