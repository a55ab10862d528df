import Spreadsheet.Proofs.Fill.Scanning
import Spreadsheet.Proofs.Formula.Layout
import Spreadsheet.Proofs.Formula.References

namespace Spreadsheet

open Token Fill

namespace Fill

variable {joined : Bool} {xs rest w : List Char}

def joinedAfter (joined : Bool) : List Char → Bool
  | [] => joined
  | c :: cs => joinedAfter (isJoining c) cs

theorem joinedAfter_eq {p : Bool} (some : xs ≠ []) (all : ∀ c ∈ xs, isJoining c = p)
    (joined : Bool) : joinedAfter joined xs = p := by
  induction xs generalizing joined with
  | nil => exact absurd rfl some
  | cons c xs ih =>
    rw [joinedAfter]
    cases xs with
    | nil => exact all c List.mem_cons_self
    | cons d xs => exact ih (by simp) (fun e member => all e (List.mem_cons_of_mem _ member)) _

theorem Solid.append_after {ys : List Char} (h : Solid joined xs)
    (h' : Solid (joinedAfter joined xs) ys) : Solid joined (xs ++ ys) := by
  induction xs generalizing joined with
  | nil => exact h'
  | cons c xs ih => exact ⟨h.1, ih h.2 h'⟩

theorem solid_of_not_isOpening (closed : ∀ c ∈ xs, isOpening c = false) (joined : Bool) :
    Solid joined xs := by
  induction xs generalizing joined with
  | nil => trivial
  | cons c xs ih =>
    exact ⟨.inr (closed c List.mem_cons_self),
      ih (fun d member => closed d (List.mem_cons_of_mem _ member)) _⟩

theorem solid_of_isJoining (joining : xs.all isJoining = true) : Solid true xs := by
  have whole : Solid true (xs ++ []) := .append joining trivial
  rwa [List.append_nil] at whole

theorem pieces_solid (solid : Solid joined xs) (rest : List Char) :
    pieces joined (xs ++ rest) = xs.map .other ++ pieces (joinedAfter joined xs) rest := by
  induction xs generalizing joined with
  | nil => rfl
  | cons c xs ih =>
    have missing : startToken? joined (c :: (xs ++ rest)) = none := by
      cases found : startToken? joined (c :: (xs ++ rest)) with
      | none => rfl
      | some result =>
        obtain ⟨rfl, taken⟩ := startToken?_eq_some_iff.mp found
        obtain ⟨s, shaped, same, whole, -⟩ := takeToken?_eq_some_iff.mp taken
        obtain ⟨d, more, chars, opening, -⟩ := exists_opening shaped
        rw [same, chars] at whole
        obtain ⟨rfl, -⟩ := List.cons.inj whole
        simp [Solid, opening] at solid
    rw [List.cons_append, pieces_of_none missing, ih solid.2]
    rfl

theorem takeToken?_letters (letters : w.all Char.isAlpha = true) (some : w ≠ [])
    (parted : Parted rest) : takeToken? (w ++ rest) = none := by
  have alpha : rest.head?.any Char.isAlpha = false :=
    parted.head? fun c letter => by simp [isOperandChar, isWordChar, Char.isAlphanum, letter]
  have dollar : rest.head?.any (· == '$') = false :=
    parted.head? fun c dollar => by simp [isOperandChar, isWordChar, beq_iff_eq.mp dollar]
  have row : takeRow? [] rest = none := by
    cases found : takeRow? [] rest with
    | none => rfl
    | some result =>
      obtain ⟨ds, same, nonempty, rfl, digits, -⟩ := takeRow?_eq_some_iff.mp found
      rw [List.nil_append] at same
      exact absurd (same.trans (parted.eq_nil digits)) nonempty
  have none : ([] : List Char).all (· == '$') = true := rfl
  obtain ⟨-, unmarked, word, after⟩ := Address.split_letters none letters some alpha
  have plain := Text.dropWhile_run none dollar
  rw [List.nil_append] at unmarked plain
  simp only [takeToken?, unmarked, word, after, plain, row, Option.map_none, ite_self]

theorem stops_of_parted (h : Parted rest) (paren : (Text.dropBlanks rest).head? ≠ some '(') :
    Stops rest := by
  constructor
  · cases rest with
    | nil => rfl
    | cons c rest =>
      have other : isJoining c = false := (parted_cons_iff.mp h).1
      simp [endsToken, other, paren]
  · rintro ds after some digits rfl
    exact absurd (h.eq_nil digits) some

end Fill

namespace Token

variable {rest last : List Char} {xs : List Lexeme}

namespace Lexeme

theorem solid_number {m : Mantissa} {exponent : List Char} (h : m.Writes exponent)
    (joined : Bool) : Solid joined (m.chars ++ exponent) := by
  have closed : ∀ c, c.isDigit = true ∨ c = '.' → isOpening c = false := by
    rintro c (digit | rfl)
    · have code := Text.isDigit_iff.mp digit
      rw [← Bool.not_eq_true, isOpening, Bool.or_eq_true, beq_iff_eq]
      rintro (letter | rfl)
      · have letter := Text.isAlpha_iff.mp letter
        omega
      · revert code
        decide
    · decide
  have joining : ∀ c ∈ m.chars, isJoining c = true := by
    intro c member
    rcases Mantissa.digit_of_mem_chars h.whole h.fraction member with digit | rfl
    · simp [isJoining, Char.isAlphanum, digit]
    · decide
  have some : m.chars ≠ [] := by
    obtain ⟨c, cs, head, -⟩ := Mantissa.head?_chars h.whole h.digits []
    intro none
    rw [none] at head
    cases head
  have mantissa : Solid joined m.chars := solid_of_not_isOpening (fun c member =>
    closed c (Mantissa.digit_of_mem_chars h.whole h.fraction member)) joined
  refine mantissa.append_after ?_
  rw [joinedAfter_eq some joining]
  rcases h.power with rfl | ⟨mark, sign, ds, rfl, -, signs, -, digits⟩
  · trivial
  · refine ⟨.inl rfl, solid_of_not_isOpening (fun c member => ?_) _⟩
    rcases List.mem_append.mp member with member | member
    · rcases signs with rfl | rfl | rfl
      · cases member
      all_goals rw [List.mem_singleton.mp member]; decide
    · exact closed c (.inl (List.all_eq_true.mp digits c member))

/-- The pieces that the text of a lexeme is made of: an address is an address token, and every other
    character stands for itself. -/
def pieces (x : Lexeme) : List Piece :=
  x.gap.map .other ++
    if x.kind.reference?.isSome then [.token x.spelling] else x.spelling.map .other

theorem letters_of_lookup? {name : String} {f : Function} (word : IsWord name.toList)
    (known : Function.lookup? name = some f) : name.toList.all Char.isAlpha = true := by
  refine List.all_eq_true.mpr fun c member => ?_
  have cases : c.isAlpha = true ∨ c.toNat < 97 := by
    have inside := List.all_eq_true.mp word.2 c member
    simp only [isWordChar, Char.isAlphanum, Bool.or_eq_true, beq_iff_eq] at inside
    rcases inside with ((letter | digit) | rfl) | rfl
    · exact .inl letter
    · have code := Text.isDigit_iff.mp digit
      exact .inr (by omega)
    all_goals exact .inr (by decide)
  rcases cases with letter | low
  · exact letter
  · exact Function.isAlpha_of_lookup? known member low

theorem pieces_letters {w : List Char} (letters : w.all Char.isAlpha = true) (some : w ≠ [])
    (parted : Parted rest) :
    ∃ flag, Fill.pieces false (w ++ rest) = w.map .other ++ Fill.pieces flag rest := by
  have missing : startToken? false (w ++ rest) = none := takeToken?_letters letters some parted
  obtain ⟨c, w, rfl⟩ := List.exists_cons_of_ne_nil some
  have joining : ∀ d : Char, d.isAlpha = true → isJoining d = true := by
    intro d letter
    simp [isJoining, Char.isAlphanum, letter]
  simp only [List.all_cons, Bool.and_eq_true, List.all_eq_true] at letters
  have solid : Solid true w := solid_of_isJoining
    (List.all_eq_true.mpr fun d member => joining d (letters.2 d member))
  refine ⟨joinedAfter true w, ?_⟩
  rw [List.cons_append] at missing ⊢
  rw [pieces_of_none missing, joining c letters.1, pieces_solid solid]
  rfl

theorem kind_of_paren {kind : Kind} (operator : kind.isOperand = false)
    (text : kind.text.toList.head? = some '(') : kind = .leftParen := by
  cases kind with
  | operator op => cases op <;> cases text
  | leftParen => rfl
  | rightParen | comma => cases text
  | _ => cases operator

variable {x : Lexeme}

theorem pieces_operand (valid : x.Valid) (known : x.kind.IsKnown)
    (operand : x.kind.isOperand = true) (parted : Parted rest)
    (paren : x.kind.reference?.isSome = true → (Text.dropBlanks rest).head? ≠ some '(') :
    ∃ flag, Fill.pieces false (x.spelling ++ rest) =
      (if x.kind.reference?.isSome then [.token x.spelling] else x.spelling.map .other) ++
        Fill.pieces flag rest := by
  have some := valid.spells.ne_nil
  have spells := valid.spells
  obtain ⟨gap, spelling, kind⟩ := x
  dsimp only at known operand paren spells some ⊢
  cases spells with
  | @number m exponent h => exact ⟨_, pieces_solid (solid_number h false) rest⟩
  | word h =>
    rcases Kind.ofWord_cases spelling with ⟨b, same⟩ | same
    · rw [same]
      exact pieces_letters (letters_of_boolean same) some parted
    · rw [same] at known paren ⊢
      rcases known with ⟨a, address⟩ | ⟨f, function⟩
      · have found : (Kind.identifier (String.ofList spelling)).reference? =
            Option.some ⟨a, String.ofList spelling⟩ :=
          Kind.reference?_eq_some_iff.mpr ⟨rfl, address⟩
        obtain ⟨s, -, shaped, whole⟩ := exists_spelling_of_parse address
        rw [String.toList_ofList] at whole
        rw [found] at paren ⊢
        rw [whole]
        exact ⟨_, pieces_token shaped (stops_of_parted parted (paren rfl))⟩
      · rw [Kind.reference?_of_lookup? function]
        refine pieces_letters ?_ some parted
        have letters := letters_of_lookup? (by rwa [String.toList_ofList]) function
        rwa [String.toList_ofList] at letters
  | operator | leftParen | rightParen | comma => cases operand

theorem solid_of_isBlank {gap : List Char} (blank : gap.all Text.isBlank = true)
    (joined : Bool) : Solid joined gap := by
  refine solid_of_not_isOpening (fun c member => not_isOpening_of_not_isJoining ?_) joined
  exact not_isJoining_of_isBlank (List.all_eq_true.mp blank c member)

/-- The address tokens of a formula's text are its references. -/
theorem pieces_join {joined : Bool} (valid : ∀ x ∈ xs, x.Valid)
    (known : ∀ x ∈ xs, x.kind.IsKnown) (chain : (xs.map Lexeme.kind).IsChain Kind.Meets)
    (blank : last.all Text.isBlank = true)
    (start : joined = true → ∀ x ∈ xs.head?, x.gap = [] → x.kind.isOperand = false) :
    Fill.pieces joined (join xs last) = xs.flatMap Lexeme.pieces ++ last.map .other := by
  induction xs generalizing joined with
  | nil =>
    have whole := pieces_solid (solid_of_isBlank blank joined) []
    rwa [List.append_nil, pieces_nil, List.append_nil] at whole
  | cons x xs ih =>
    have first := valid x List.mem_cons_self
    have others := fun flag => @ih flag (fun y member => valid y (List.mem_cons_of_mem _ member))
      (fun y member => known y (List.mem_cons_of_mem _ member)) chain.tail
    rw [join, pieces_solid (solid_of_isBlank first.blank joined), List.flatMap_cons, pieces]
    simp only [List.append_assoc, List.append_cancel_left_eq]
    cases operand : x.kind.isOperand with
    | false =>
      have apart : ∀ c ∈ x.spelling, isJoining c = false := first.spells.not_isOperandChar operand
      have plain : x.kind.reference? = none := by
        cases kind : x.kind <;> simp [kind, Kind.isOperand] at operand <;> rfl
      have solid : Solid (joinedAfter joined x.gap) x.spelling := solid_of_not_isOpening
        (fun c member => not_isOpening_of_not_isJoining (apart c member)) _
      have outside := others false fun joined => absurd joined Bool.false_ne_true
      rw [pieces_solid solid, joinedAfter_eq first.spells.ne_nil apart, outside, plain]
      rfl
    | true =>
      have next : ∀ y ∈ xs.head?, x.kind.Meets y.kind := by
        intro y head
        refine chain.rel_head? ?_
        rw [List.head?_map, head]
        rfl
      have mark : ∀ y ∈ xs.head?, y.kind.isOperand = false :=
        fun y head => (next y head).not_isOperand operand
      have clear : joinedAfter joined x.gap = false := by
        cases gap : x.gap with
        | nil =>
          rw [joinedAfter, ← Bool.not_eq_true]
          intro ended
          cases (start ended x rfl gap).symm.trans operand
        | cons c gap' =>
          have blank := first.blank
          rw [gap] at blank
          exact joinedAfter_eq (by simp) (fun d member =>
            not_isJoining_of_isBlank (List.all_eq_true.mp blank d member)) joined
      have parted : Parted (join xs last) :=
        parted_join (fun y member => valid y (List.mem_cons_of_mem _ member)) blank mark
      have paren : x.kind.reference?.isSome = true →
          (Text.dropBlanks (join xs last)).head? ≠ some '(' := by
        intro found opening
        obtain ⟨r, reference⟩ := Option.isSome_iff_exists.mp found
        obtain ⟨kind, address⟩ := Kind.reference?_eq_some_iff.mp reference
        obtain ⟨y, head, operator, text⟩ := head?_dropBlanks_join
          (fun y member => valid y (List.mem_cons_of_mem _ member)) blank opening (by decide)
        have meets := next y head
        rw [kind, kind_of_paren operator text] at meets
        obtain ⟨f, function⟩ := Option.isSome_iff_exists.mp meets
        exact Function.parse_ne_ok function address
      obtain ⟨flag, read⟩ :=
        pieces_operand first (known x List.mem_cons_self) operand parted paren
      rw [clear, read, others flag fun _ y head _ => mark y head]

end Lexeme

end Token

end Spreadsheet
