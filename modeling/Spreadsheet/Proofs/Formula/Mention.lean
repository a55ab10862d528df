import Spreadsheet.Proofs.Fill.Shift
import Spreadsheet.Proofs.Formula.References
import Spreadsheet.Proofs.Formula.WellFormed
import Spreadsheet.Resolution.Resolver

namespace Spreadsheet

namespace Token

variable {t : Token} {ts us : List Token} {name : String}

def openParen (ts : List Token) : Bool := ts.head?.any (·.kind == .leftParen)

/-- The names of the words that no left parenthesis follows, from left to right. -/
def mentions : List Token → List String
  | [] => []
  | t :: rest =>
    match t.kind with
    | .identifier name => if openParen rest then mentions rest else name :: mentions rest
    | _ => mentions rest

theorem mentions_mark (other : t.category ≠ .identifier) : mentions (t :: ts) = mentions ts := by
  unfold category at other
  rw [mentions]
  split
  · rename_i same
    rw [same] at other
    exact absurd rfl other
  · rfl

theorem mentions_word (same : t.kind = .identifier name) :
    mentions (t :: ts) = if openParen ts then mentions ts else name :: mentions ts := by
  simp only [mentions, same]

theorem openParen_append (apart : openParen us = false) (ts : List Token) :
    openParen (ts ++ us) = openParen ts := by
  cases ts with
  | nil => exact apart
  | cons t ts => rfl

theorem mentions_append (apart : openParen us = false) (ts : List Token) :
    mentions (ts ++ us) = mentions ts ++ mentions us := by
  induction ts with
  | nil => rfl
  | cons t ts ih =>
    by_cases word : t.category = .identifier
    · cases same : t.kind with
      | identifier name =>
        rw [List.cons_append, mentions_word same, mentions_word same, openParen_append apart, ih]
        split
        · rfl
        · rfl
      | _ => simp [category, Kind.category, same] at word
    · rw [List.cons_append, mentions_mark word, mentions_mark word, ih]

theorem collects_mentions : Collects mentions Reference.text where
  nil := rfl
  append ts us apart := by
    apply mentions_append
    cases us with
    | nil => rfl
    | cons u us => exact beq_eq_false_iff_ne.mpr (apart u rfl)
  mark t ts other := mentions_mark other
  callee t left ts name f mark known opening := by
    have opens : openParen (left :: ts) = true := beq_iff_eq.mpr opening
    rw [mentions_word mark, if_pos opens, mentions_mark (by rw [category, opening]; decide)]
  reference t name a mark valid := mentions_word mark

end Token

namespace Expr

theorem distinctCells_filter (keep : Coordinate → Bool) (as : List Address) :
    distinctCells (as.filter fun a => keep a.coordinate) =
      (distinctCells as).filter fun a => keep a.coordinate := by
  induction as with
  | nil => rfl
  | cons b as ih =>
    by_cases kept : keep b.coordinate = true
    · rw [List.filter_cons, if_pos kept, distinctCells, ih, distinctCells, List.filter_cons,
        if_pos kept, List.filter_filter, List.filter_filter]
      congr 2
      funext a
      exact Bool.and_comm _ _
    · rw [List.filter_cons, if_neg kept, ih, distinctCells, List.filter_cons, if_neg kept,
        List.filter_filter]
      apply List.filter_congr
      intro a _
      -- What is kept is another cell than `b` anyway.
      by_cases same : a.coordinate = b.coordinate
      · simp [same, kept]
      · simp [same]

theorem distinctCells_eq_eraseDupsBy : (as : List Address) →
    distinctCells as = as.eraseDupsBy fun a b => a.coordinate == b.coordinate
  | [] => rfl
  | a :: as => by
    have other : (fun b : Address => decide ((b.coordinate == a.coordinate) = false)) =
        fun b => b.coordinate != a.coordinate := by
      funext b
      exact Bool.decide_eq_false
    rw [distinctCells, ← distinctCells_filter (· != a.coordinate), distinctCells_eq_eraseDupsBy,
      List.eraseDupsBy_cons, other]
termination_by as => as.length
decreasing_by
  have shorter := List.length_filter_le (fun b => b.coordinate != a.coordinate) as
  simp only [List.length_cons]
  omega

/-- The references of a formula are its words that are no names of calls, in the order of the text,
    each with the address that it is read as. The cells that it references are their addresses, but
    for those of a cell that stands further left. -/
theorem references_of_parse {text : String} {e : Expr} (parsed : parse text = .ok e) :
    (∃ ts, Token.tokenize text = .ok ts ∧ e.references.map (·.text) = Token.mentions ts) ∧
      (∀ r ∈ e.references, Address.parse r.text = .ok r.address) ∧
      extractReferences ("=" ++ text) =
        .ok ((e.references.map (·.address)).eraseDupsBy fun a b => a.coordinate == b.coordinate) := by
  obtain ⟨ts, tokens, derived⟩ := exists_derives_of_parse parsed
  refine ⟨⟨ts, tokens, (derived.collects Token.collects_mentions).symm⟩,
    derived.wellFormed.parse_reference, ?_⟩
  have formula : formulaBody? ("=" ++ text) = some text := by
    rw [formulaBody?_eq_some_iff, ← String.toList_inj, String.toList_ofList, String.toList_append]
    rfl
  rw [extractReferences, formula]
  simp only [parsed, Except.map, cells, distinctCells_eq_eraseDupsBy]

theorem references_of_parse_of_repeated :
    let cell (column row : Nat) : Address := ⟨column, row, false, false⟩
    let text := "sum(b2 > $a1, A1%)*-IF(B2, c3)"
    let first : Address := ⟨0, 0, true, false⟩
    let e : Expr :=
      binary .multiply
        (call "SUM" [binary .greater (ref ⟨cell 1 1, "b2"⟩) (ref ⟨first, "$a1"⟩),
          percent (ref ⟨cell 0 0, "A1"⟩)])
        (unary .minus (call "IF" [ref ⟨cell 1 1, "B2"⟩, ref ⟨cell 2 2, "c3"⟩]))
    parse text = .ok e ∧
      (∃ ts, Token.tokenize text = .ok ts ∧
        Token.mentions ts = ["b2", "$a1", "A1", "B2", "c3"]) ∧
      extractReferences ("=" ++ text) = .ok [cell 1 1, first, cell 2 2] := by
  intro cell text first e
  have parsed : parse text = .ok e := by cbv
  obtain ⟨⟨ts, tokens, texts⟩, -, extracted⟩ := references_of_parse parsed
  exact ⟨parsed, ⟨ts, tokens, texts.symm⟩, extracted⟩

end Expr

end Spreadsheet
