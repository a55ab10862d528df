import Spreadsheet.Proofs.Fill.Shift
import Spreadsheet.Proofs.Formula.Calculation
import Spreadsheet.Proofs.Formula.Outcome
import Spreadsheet.Proofs.Resolution.Finite

namespace Spreadsheet

variable {text body : String} {texts : List String}

theorem isSuffix_of_formulaBody? (formula : formulaBody? text = some body) :
    body.toList <:+ text.toList := by
  rw [formulaBody?_eq_some_iff.mp formula, String.toList_ofList]
  exact List.suffix_cons _ _

theorem length_le_of_formulaBody? (formula : formulaBody? text = some body) :
    body.length ≤ text.length := by
  have le := (isSuffix_of_formulaBody? formula).length_le
  rwa [String.length_toList, String.length_toList] at le

namespace Failure

variable {f : Failure} {size : Nat}

/-- A failure that a sheet shows in the failing cell, unless one of the texts is out of proportion:
    it has a row number too long to be read, or it may have a mean of more numbers than a double can
    count. -/
def OfTexts (texts : List String) (f : Failure) : Prop :=
  f.HasCode ∨ ∃ t ∈ texts, f.OfLongRow t ∨ f = .wholeTooLarge ∧ 2 ^ 1023 ≤ t.length

/-- A failure of the texts, or of a limit that is exceeded and cannot be written. -/
def OfResolution (texts : List String) (maxDepth : Option Int) (f : Failure) : Prop :=
  f.OfTexts texts ∨ f = .unwritable ∧ ∃ limit ∈ maxDepth, ¬ IsWritable limit

theorem OfLongRow.mono (h : f.OfLongRow body) (within : body.toList <:+: text.toList) :
    f.OfLongRow text := by
  obtain ⟨digits, inside, row⟩ := h
  exact ⟨digits, inside.trans within, row⟩

theorem OfLongRow.ofTexts (h : f.OfLongRow text) (member : text ∈ texts) : f.OfTexts texts :=
  .inr ⟨text, member, .inl h⟩

theorem OfCalculation.ofTexts (h : f.OfCalculation size) (member : text ∈ texts)
    (le : size ≤ text.length) : f.OfTexts texts := by
  rcases h with arithmetic | ⟨count, long⟩
  · exact .inl arithmetic.hasCode
  · exact .inr ⟨text, member, .inr ⟨count, long.trans le⟩⟩

end Failure

theorem Expr.parse_fails_of_mem (formula : formulaBody? text = some body) (member : text ∈ texts) :
    Fails (Failure.OfTexts texts) (parse body) := by
  refine (parse_fails body).mono fun f failure => ?_
  rcases failure with textual | row
  · exact .inl textual.hasCode
  · exact (row.mono (isSuffix_of_formulaBody? formula).isInfix).ofTexts member

theorem RawCell.body?_text {content : CellContent} (held : (RawCell.text text).toContent = .ok content)
    (formula : content.body? = some body) : formulaBody? text = some body := by
  cases held
  split at formula
  · exact formula
  · cases formula

def CellTable.ofTexts (cells : List (String × String)) : CellTable :=
  cells.map fun cell => (.text cell.1, .text cell.2)

namespace CellIndex

variable {index index' : CellIndex} {name : String} {cells : List (String × String)}
  {c : Coordinate}

/-- The formulas of an index stand in some texts. -/
def WrittenIn (texts : List String) (index : CellIndex) : Prop :=
  ∀ entry ∈ index, ∀ body, entry.2.body? = some body → ∃ t ∈ texts, formulaBody? t = some body

theorem WrittenIn.add (h : index.WrittenIn texts) (member : text ∈ texts)
    (added : index.add (.text name) (.text text) = .ok index') : index'.WrittenIn texts := by
  unfold CellIndex.add at added
  split at added
  · cases added
  · split at added
    · cases added
    · cases added
      intro entry entered body formula
      rcases List.mem_append.mp entered with earlier | last
      · exact h entry earlier body formula
      · rw [List.mem_singleton.mp last] at formula
        exact ⟨text, member, RawCell.body?_text rfl formula⟩

theorem WrittenIn.addAll (members : ∀ cell ∈ cells, cell.2 ∈ texts) (h : index.WrittenIn texts)
    (added : index.addAll (.ofTexts cells) = .ok index') : index'.WrittenIn texts := by
  induction cells generalizing index with
  | nil =>
    cases added
    exact h
  | cons cell cells ih =>
    obtain ⟨text, others⟩ := List.forall_mem_cons.mp members
    obtain ⟨next, first, rest⟩ := Except.bind_eq_ok added
    exact ih others (h.add text first) rest

theorem WrittenIn.exists_body (h : index.WrittenIn texts)
    (found : ∀ x notes, index.finding c ≠ .value x notes) :
    ∃ t ∈ texts, ∃ body, formulaBody? t = some body ∧
      index.finding c =
        match Expr.parse body with
        | .error f => .failure f
        | .ok e => .formula e := by
  cases look : index.get? c with
  | none => exact absurd (finding_of_none look) (found _ _)
  | some content =>
    cases formula : content.body? with
    | none => exact absurd (finding_of_literal look formula) (found _ _)
    | some body =>
      obtain ⟨t, member, written⟩ := h _ (mem_of_get? look) body formula
      exact ⟨t, member, body, written, finding_of_body? look formula⟩

theorem WrittenIn.failure {f : Failure} (h : index.WrittenIn texts)
    (found : index.finding c = .failure f) : f.OfTexts texts := by
  obtain ⟨t, member, body, written, look⟩ := h.exists_body (c := c) (by simp [found])
  rw [found] at look
  cases parsed : Expr.parse body with
  | error g =>
    rw [parsed] at look
    cases look
    exact Expr.parse_fails_of_mem written member _ parsed
  | ok e =>
    rw [parsed] at look
    cases look

theorem WrittenIn.wellFormed {e : Expr} (h : index.WrittenIn texts)
    (found : index.finding c = .formula e) : ∃ t ∈ texts, e.WellFormed t.length := by
  obtain ⟨t, member, body, written, look⟩ := h.exists_body (c := c) (by simp [found])
  rw [found] at look
  cases parsed : Expr.parse body with
  | error g =>
    rw [parsed] at look
    cases look
  | ok e' =>
    rw [parsed] at look
    cases look
    exact ⟨t, member, (Expr.wellFormed_of_parse parsed).mono (length_le_of_formulaBody? written)⟩

end CellIndex

namespace Task

variable {t : Task} {index : CellIndex} {current : Option Address} {memo : Memo} {size : Nat}

theorem Passed.value {r : Reference} (h : t.Passed memo []) (sound : index.Sound current memo)
    (visited : t.pending = []) (member : r ∈ t.body.references) :
    ∃ x : Float, memo.value r.address = .ok (.double x) := by
  have coordinate : r.address.coordinate ∈ t.body.coordinates :=
    Expr.mem_coordinates.mpr ⟨r, member, rfl⟩
  obtain ⟨x, found⟩ := Memo.has_iff.mp (h.known visited _ coordinate)
  obtain ⟨y, rfl, -⟩ := (sound.gives found).isFiniteDouble
  exact ⟨y, by rw [Memo.value, found]⟩

theorem value_calculates (formed : t.body.WellFormed size) (passed : t.Passed memo [])
    (sound : index.Sound current memo) (visited : t.pending = []) :
    Calculates size (t.value memo) :=
  Expr.eval_calculates _ formed fun _ member => passed.value sound visited member

end Task

namespace Machine

variable {s : Setting} {m : Machine} {current : Option Address} {outcome : Except Failure Number}

theorem Consistent.exists_wellFormed (h : m.Consistent s.index current)
    (written : s.index.WrittenIn texts) (root : ∃ t ∈ texts, m.root.body.WellFormed t.length) :
    ∃ t ∈ texts, m.top.body.WellFormed t.length := by
  cases nested : m.nested with
  | nil => rwa [top_of_nil nested]
  | cons task outer =>
    obtain ⟨a, t⟩ := task
    have inner := h.nested
    rw [nested] at inner
    rw [top_of_cons nested]
    cases inner with
    | cons _ formula _ => exact written.wellFormed formula

theorem Ends.fails (ends : Ends s m outcome) (h : m.Consistent s.index current)
    (written : s.index.WrittenIn texts) (root : ∃ t ∈ texts, m.root.body.WellFormed t.length) :
    Fails (Failure.OfResolution texts s.maxDepth) outcome := by
  have value : ∀ visited : m.top.pending = [],
      Fails (Failure.OfResolution texts s.maxDepth) (m.top.value m.memo) := by
    intro visited
    obtain ⟨t, member, formed⟩ := h.exists_wellFormed written root
    exact (Task.value_calculates formed h.passed h.sound visited).fails.mono fun f failure =>
      .inl (failure.ofTexts member (Nat.le_refl _))
  cases ends with
  | finished bottom visited =>
    rw [← top_of_nil bottom] at visited ⊢
    exact value visited
  | failed visited failed => exact .error (value visited _ failed)
  | circular _ _ _ => exact .error (.inl (.inl rfl))
  | unreadable _ _ found _ => exact .error (.inl (written.failure found))
  | @tooDeep a as limit _ _ _ exceeded =>
    have limited := (Setting.maxDepth_of_exceeded? exceeded).1
    rcases Failure.naming_eq_or limit (.tooDeep limit a.coordinate) with named | ⟨long, same⟩
    · rw [named]
      exact .error (.inl (.inl rfl))
    · rw [same]
      exact .error (.inr ⟨rfl, limit, limited, long⟩)

end Machine

namespace Resolver

variable {r : Resolver} {cells : List (String × String)} {current : Option String}
  {depth : Option Int}

theorem resolve_fails (sound : r.index.Sound r.current r.memo) (written : r.index.WrittenIn texts)
    (member : text ∈ texts) :
    Fails (Failure.OfResolution texts r.maxDepth) (r.resolve text).outcome := by
  rcases r.resolve_cases text with
    ⟨-, same⟩ | ⟨body, formula, ⟨f, parsed, same⟩ | ⟨e, parsed, same⟩⟩
  · rw [same]
    exact .ok _
  · rw [same]
    exact .error (.inl (Expr.parse_fails_of_mem formula member _ parsed))
  · obtain ⟨last, consistent, root, ends, -⟩ := resolveExpr_spec sound e
    rw [same]
    refine ends.fails consistent written ⟨text, member, ?_⟩
    rw [root]
    exact (Expr.wellFormed_of_parse parsed).mono (length_le_of_formulaBody? formula)

end Resolver

def textsOf (text : String) (cells : List (String × String)) (current : Option String) :
    List String :=
  text :: (current.toList ++ cells.flatMap fun cell => [cell.1, cell.2])

end Spreadsheet
