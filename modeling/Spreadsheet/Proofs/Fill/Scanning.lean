import Spreadsheet.Proofs.Fill.Token

namespace Spreadsheet.Fill

open Address

variable {joined : Bool} {c : Char} {xs cs cs' rest token : List Char} {s : Spelling}

/-- The characters that an address token may start with. -/
def isOpening (c : Char) : Bool := c.isAlpha || c == '$'

theorem isJoining_of_isOpening (h : isOpening c = true) : isJoining c = true := by
  simp only [isOpening, Bool.or_eq_true] at h
  rcases h with letter | dollar
  · simp [isJoining, Char.isAlphanum, letter]
  · simp [isJoining, dollar]

theorem not_isDecimalDigit_of_isOpening (h : isOpening c = true) :
    Text.isDecimalDigit c = false := by
  simp only [isOpening, Bool.or_eq_true, beq_iff_eq] at h
  exact not_isDecimalDigit h

theorem not_isBlank_of_isJoining (h : isJoining c = true) : Text.isBlank c = false := by
  rw [← Bool.not_eq_true]
  intro blank
  have code := Text.isBlank_code blank
  simp only [isJoining, Char.isAlphanum, Bool.or_eq_true, beq_iff_eq] at h
  rcases h with (((letter | digit) | rfl) | rfl) | rfl
  · have letter := Text.isAlpha_iff.mp letter
    omega
  · have digit := Text.isDigit_iff.mp digit
    omega
  all_goals exact absurd code (by decide)

theorem not_isJoining_of_isBlank (blank : Text.isBlank c = true) : isJoining c = false := by
  rw [← Bool.not_eq_true]
  intro joining
  cases (not_isBlank_of_isJoining joining).symm.trans blank

theorem not_isOpening_of_not_isJoining (h : isJoining c = false) : isOpening c = false := by
  rw [← Bool.not_eq_true]
  intro opening
  cases h.symm.trans (isJoining_of_isOpening opening)

/-- Two texts that may differ from the start of an address token on. What matters in front of it is
    the same in both; `joined` tells whether a word or number ends in front of the texts. -/
inductive Alike : Bool → List Char → List Char → Prop where
  | nil (joined : Bool) : Alike joined [] []
  | opening {c c' : Char} {cs cs' : List Char} (h : isOpening c = true) (h' : isOpening c' = true) :
      Alike false (c :: cs) (c' :: cs')
  | cons {joined : Bool} {c : Char} {cs cs' : List Char} (tail : Alike (isJoining c) cs cs') :
      Alike joined (c :: cs) (c :: cs')

namespace Alike

theorem symm (h : Alike joined cs cs') : Alike joined cs' cs := by
  induction h with
  | nil joined => exact .nil joined
  | opening h h' => exact .opening h' h
  | cons _ ih => exact .cons ih

theorem head?_dropBlanks (h : Alike joined cs cs') :
    (Text.dropBlanks cs).head? = some '(' ↔ (Text.dropBlanks cs').head? = some '(' := by
  induction h with
  | nil => exact Iff.rfl
  | @opening c c' cs cs' h h' =>
    have other : ∀ d ds, isOpening d = true → (Text.dropBlanks (d :: ds)).head? ≠ some '(' := by
      intro d ds opening
      have mark := not_isBlank_of_isJoining (isJoining_of_isOpening opening)
      rw [Text.dropBlanks, List.dropWhile_cons_of_neg (by simp [mark])]
      rintro ⟨⟩
      cases opening
    exact iff_of_false (other c cs h) (other c' cs' h')
  | @cons joined c cs cs' tail ih =>
    unfold Text.dropBlanks at ih ⊢
    by_cases blank : Text.isBlank c = true
    · rw [List.dropWhile_cons_of_pos blank, List.dropWhile_cons_of_pos blank]
      exact ih
    · rw [List.dropWhile_cons_of_neg blank, List.dropWhile_cons_of_neg blank]
      exact Iff.rfl

theorem endsToken_eq (h : Alike joined cs cs') : endsToken cs = endsToken cs' := by
  cases h with
  | nil => rfl
  | opening h h' =>
    rw [endsToken, endsToken, isJoining_of_isOpening h, isJoining_of_isOpening h']
    rfl
  | @cons joined c cs cs' tail =>
    have whole : Alike joined (c :: cs) (c :: cs') := .cons tail
    have paren := whole.head?_dropBlanks
    simp only [endsToken]
    congr 1
    rw [Bool.eq_iff_iff, bne_iff_ne, bne_iff_ne, ne_eq, ne_eq, paren]

end Alike

/-- No address token can start inside a text. -/
def Solid : Bool → List Char → Prop
  | _, [] => True
  | joined, c :: cs => (joined = true ∨ isOpening c = false) ∧ Solid (isJoining c) cs

theorem solid_digits (joined : Bool) (digits : xs.all Text.isDecimalDigit = true) :
    Solid joined xs := by
  induction xs generalizing joined with
  | nil => trivial
  | cons c xs ih =>
    simp only [List.all_cons, Bool.and_eq_true] at digits
    refine ⟨.inr ?_, ih _ digits.2⟩
    rw [← Bool.not_eq_true]
    intro opening
    have other := not_isDecimalDigit_of_isOpening opening
    rw [digits.1] at other
    cases other

theorem Solid.append (joining : xs.all isJoining = true) (h : Solid true cs) :
    Solid true (xs ++ cs) := by
  induction xs with
  | nil => exact h
  | cons c xs ih =>
    simp only [List.all_cons, Bool.and_eq_true] at joining
    refine ⟨.inl rfl, ?_⟩
    rw [joining.1]
    exact ih joining.2

namespace Alike

/-- Texts that are alike are the same as far as no address token can start. -/
theorem split (h : Alike joined (xs ++ rest) cs) (solid : Solid joined xs) :
    ∃ rest' joined', cs = xs ++ rest' ∧ Alike joined' rest rest' := by
  induction xs generalizing joined cs with
  | nil => exact ⟨cs, joined, rfl, h⟩
  | cons x xs ih =>
    cases h with
    | opening opening _ =>
      rcases solid.1 with flag | closed
      · cases flag
      · rw [opening] at closed
        cases closed
    | cons tail =>
      obtain ⟨rest', joined', rfl, after⟩ := ih tail solid.2
      exact ⟨rest', joined', rfl, after⟩

theorem stops (h : Alike joined cs cs') (stops : Stops cs) : Stops cs' := by
  refine ⟨h.endsToken_eq ▸ stops.1, ?_⟩
  rintro ds after some digits rfl
  obtain ⟨before, flag, rfl, tail⟩ := h.symm.split (solid_digits joined digits)
  rw [tail.endsToken_eq]
  exact stops.2 ds before some digits rfl

end Alike

theorem all_isJoining (shaped : s.Shaped) :
    (s.columnMarks ++ (s.letters ++ markerText s.rowMarked)).all isJoining = true := by
  have dollar : ∀ c, c = '$' → isJoining c = true := by
    rintro c rfl
    rfl
  simp only [List.all_append, Bool.and_eq_true, List.all_eq_true]
  refine ⟨fun c member => ?_, fun c member => ?_, fun c member => ?_⟩
  · exact dollar c (by simpa using List.all_eq_true.mp shaped.marks c member)
  · simp [isJoining, Char.isAlphanum, List.all_eq_true.mp shaped.letters c member]
  · cases marked : s.rowMarked with
    | true =>
      rw [marked] at member
      exact dollar c (List.mem_singleton.mp member)
    | false =>
      rw [marked] at member
      cases member

theorem exists_opening (shaped : s.Shaped) :
    ∃ c more, s.chars = c :: more ∧ isOpening c = true ∧ Solid (isJoining c) more := by
  have joining := all_isJoining shaped
  have some : s.columnMarks ++ (s.letters ++ markerText s.rowMarked) ≠ [] := by
    simp [shaped.some_letter]
  have whole : s.chars = s.columnMarks ++ (s.letters ++ markerText s.rowMarked) ++ s.digits := by
    simp [Spelling.chars]
  have first :
      (s.columnMarks ++ (s.letters ++ markerText s.rowMarked)).head?.any isOpening = true := by
    cases marks : s.columnMarks with
    | nil =>
      obtain ⟨c, letters, word⟩ := List.exists_cons_of_ne_nil shaped.some_letter
      have all := shaped.letters
      rw [word, List.all_cons, Bool.and_eq_true] at all
      simp [word, isOpening, all.1]
    | cons c dollars =>
      have all := shaped.marks
      rw [marks, List.all_cons, Bool.and_eq_true] at all
      simp [isOpening, beq_iff_eq.mp all.1]
  obtain ⟨c, more, front⟩ := List.exists_cons_of_ne_nil some
  rw [front, List.all_cons, Bool.and_eq_true] at joining
  rw [front] at whole first
  refine ⟨c, more ++ s.digits, whole, first, ?_⟩
  rw [joining.1]
  exact .append joining.2 (solid_digits true shaped.digits)

theorem Alike.takeToken?_eq_some (h : Alike (isJoining c) cs cs')
    (found : takeToken? (c :: cs) = some (token, rest)) :
    ∃ rest', takeToken? (c :: cs') = some (token, rest') := by
  obtain ⟨s, shaped, rfl, whole, stops⟩ := takeToken?_eq_some_iff.mp found
  obtain ⟨d, more, chars, -, solid⟩ := exists_opening shaped
  rw [chars, List.cons_append] at whole
  cases whole
  obtain ⟨rest', flag, rfl, tail⟩ := h.split solid
  refine ⟨rest', takeToken?_eq_some_iff.mpr ⟨s, shaped, rfl, ?_, tail.stops stops⟩⟩
  rw [chars, List.cons_append]

theorem startToken?_eq_some_iff {result : List Char × List Char} :
    startToken? joined cs = some result ↔ joined = false ∧ takeToken? cs = some result := by
  cases joined with
  | true => simp [startToken?]
  | false => simp [startToken?]

theorem Alike.startToken?_eq_none (h : Alike (isJoining c) cs cs')
    (missing : startToken? joined (c :: cs) = none) : startToken? joined (c :: cs') = none := by
  cases found : startToken? joined (c :: cs') with
  | none => rfl
  | some result =>
    obtain ⟨start, taken⟩ := startToken?_eq_some_iff.mp found
    obtain ⟨rest', other⟩ := h.symm.takeToken?_eq_some taken
    cases missing.symm.trans (startToken?_eq_some_iff.mpr ⟨start, other⟩)

def flat (ps : List Piece) : List Char := ps.flatMap Piece.chars

theorem flat_cons (p : Piece) (ps : List Piece) : flat (p :: ps) = p.chars ++ flat ps :=
  List.flatMap_cons

theorem flat_append (ps qs : List Piece) : flat (ps ++ qs) = flat ps ++ flat qs :=
  List.flatMap_append

theorem flat_other (cs : List Char) : flat (cs.map .other) = cs := by
  induction cs with
  | nil => rfl
  | cons c cs ih =>
    rw [List.map_cons, flat_cons, ih]
    rfl

theorem pieces_nil (joined : Bool) : pieces joined [] = [] := by
  rw [pieces]

theorem pieces_of_none (h : startToken? joined (c :: cs) = none) :
    pieces joined (c :: cs) = .other c :: pieces (isJoining c) cs := by
  rw [pieces]
  split
  · rfl
  · rename_i found
    cases h.symm.trans found

theorem pieces_of_some (h : startToken? joined (c :: cs) = some (token, rest)) :
    pieces joined (c :: cs) = .token token :: pieces (token.getLast?.any isJoining) rest := by
  rw [pieces]
  split
  · rename_i none
    cases h.symm.trans none
  · rename_i found
    cases h.symm.trans found
    rfl

theorem pieces_token (shaped : s.Shaped) (stops : Stops rest) :
    pieces false (s.chars ++ rest) =
      .token s.chars :: pieces (s.chars.getLast?.any isJoining) rest := by
  obtain ⟨c, more, chars, -, -⟩ := exists_opening shaped
  have taken := takeToken?_eq_some_iff.mpr ⟨s, shaped, rfl, rfl, stops⟩
  rw [chars, List.cons_append] at taken ⊢
  exact pieces_of_some (startToken?_eq_some_iff.mpr ⟨rfl, taken⟩)

theorem flat_pieces (joined : Bool) (cs : List Char) : flat (pieces joined cs) = cs := by
  induction joined, cs using pieces.induct with
  | case1 joined => rw [pieces_nil]; rfl
  | case2 joined c tail missing ih =>
    rw [pieces_of_none missing]
    exact congrArg (c :: ·) ih
  | case3 joined c tail token rest found _ ih =>
    obtain ⟨start, taken⟩ := startToken?_eq_some_iff.mp found
    rw [pieces_of_some found, flat_cons, ih]
    exact (takeToken?_append taken).2

/-- A change of address tokens into address tokens. -/
structure KeepsTokens (g : Piece → Piece) : Prop where
  other : ∀ c, g (.other c) = .other c
  token : ∀ s : Spelling, s.Shaped → ∃ s' : Spelling, s'.Shaped ∧
    g (.token s.chars) = .token s'.chars ∧
      s'.chars.getLast?.any isJoining = s.chars.getLast?.any isJoining

theorem pieces_map {g : Piece → Piece} (keeps : KeepsTokens g) (joined : Bool) (cs : List Char) :
    pieces joined (flat ((pieces joined cs).map g)) = (pieces joined cs).map g ∧
      Alike joined cs (flat ((pieces joined cs).map g)) := by
  induction joined, cs using pieces.induct with
  | case1 joined =>
    rw [pieces_nil]
    exact ⟨pieces_nil joined, .nil joined⟩
  | case2 joined c tail missing ih =>
    rw [pieces_of_none missing, List.map_cons, keeps.other, flat_cons]
    refine ⟨?_, .cons ih.2⟩
    rw [Piece.chars, List.singleton_append, pieces_of_none (ih.2.startToken?_eq_none missing), ih.1]
  | case3 joined c tail token rest found _ ih =>
    obtain ⟨rfl, taken⟩ := startToken?_eq_some_iff.mp found
    obtain ⟨s, shaped, rfl, whole, stops⟩ := takeToken?_eq_some_iff.mp taken
    obtain ⟨s', shaped', changed, last⟩ := keeps.token s shaped
    obtain ⟨d, more, chars, opening, -⟩ := exists_opening shaped
    obtain ⟨d', more', chars', opening', -⟩ := exists_opening shaped'
    rw [pieces_of_some found, List.map_cons, changed, flat_cons, Piece.chars]
    constructor
    · rw [pieces_token shaped' (ih.2.stops stops), last, ih.1]
    · rw [whole, chars, chars']
      exact .opening opening opening'

end Spreadsheet.Fill
