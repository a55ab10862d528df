import Spreadsheet.Proofs.Resolution.Consistency
import Spreadsheet.Resolution.Direct
import Spreadsheet.Resolution.Resolver

namespace Spreadsheet

variable {index : CellIndex} {current : Option Address} {memo : Memo} {path : List Address}

theorem CellIndex.Sound.direct {e : Expr} (sound : index.Sound current memo)
    (off : ∀ b ∈ path, ¬ memo.Has b.coordinate) (known : ∀ c ∈ e.coordinates, memo.Has c) :
    index.direct path e = (e.eval memo.value).outcome := by
  apply CellIndex.direct_of_memo
  intro a member
  have has := known a.coordinate (List.mem_map_of_mem member)
  obtain ⟨x, found⟩ := Memo.has_iff.mp has
  exact ⟨x, found, sound.directCell off found⟩

theorem Task.Passed.direct_error {t : Task} {a : Address} {f : Failure} (h : t.Passed memo [a])
    (sound : index.Sound current memo) (off : ∀ b ∈ path, ¬ memo.Has b.coordinate)
    (failed : index.directCell path a = .error f) : index.direct path t.body = .error f := by
  obtain ⟨passed, cells, known⟩ := h
  have earlier : ∀ b ∈ passed, ∃ x, index.directCell path b = .ok x := by
    intro b member
    obtain ⟨x, found⟩ := Memo.has_iff.mp (known b member)
    exact ⟨x, sound.directCell off found⟩
  have all := CellIndex.directAll_error earlier failed t.pending
  rw [CellIndex.direct, cells, List.append_assoc, List.singleton_append, all]
  rfl

namespace Machine

variable {s : Setting} {m : Machine} {root : Task} {nested : List (Address × Task)}
  {outcome : Except Failure Number}

/-- Formulas that are nested in distinct cells without values. -/
structure Descent (index : CellIndex) (current : Option Address) (memo : Memo) (root : Task)
    (nested : List (Address × Task)) : Prop where
  formulas : Nested index memo root nested
  fresh : ∀ b ∈ pathTo current nested, ¬ memo.Has b.coordinate
  distinct : ((pathTo current nested).map Address.coordinate).Nodup

namespace Descent

variable {a : Address} {t : Task} {detour : List (Address × Task)} {f : Failure}

theorem outer (h : Descent index current memo root ((a, t) :: nested)) :
    Descent index current memo root nested := by
  obtain ⟨formulas, fresh, distinct⟩ := h
  rw [pathTo_cons] at fresh distinct
  rw [List.map_append] at distinct
  cases formulas with
  | cons rest _ _ =>
    exact ⟨rest, fun b member => fresh b (List.mem_append_left _ member),
      (List.nodup_append.mp distinct).1⟩

theorem drop (h : Descent index current memo root (detour ++ nested)) :
    Descent index current memo root nested := by
  induction detour with
  | nil => exact h
  | cons task detour ih => exact ih h.outer

theorem not_mem (h : Descent index current memo root ((a, t) :: nested)) :
    a.coordinate ∉ (pathTo current nested).map Address.coordinate := by
  have distinct := h.distinct
  rw [pathTo_cons, List.map_append, List.nodup_append] at distinct
  exact fun member => distinct.2.2 _ member _ (List.mem_singleton_self _) rfl

theorem directCell_error (h : Descent index current memo root ((a, t) :: nested))
    (failed : index.direct (pathTo current ((a, t) :: nested)) t.body = .error f) :
    index.directCell (pathTo current nested) a = .error f := by
  rw [pathTo_cons] at failed
  rw [CellIndex.directCell_of_not_mem h.not_mem]
  cases h.formulas with
  | cons _ formula _ =>
    rw [formula]
    exact failed

theorem direct_error (h : Descent index current memo root (detour ++ nested))
    (sound : index.Sound current memo)
    (failed : index.direct (pathTo current (detour ++ nested))
      (innermost root (detour ++ nested)).body = .error f) :
    index.direct (pathTo current nested) (innermost root nested).body = .error f := by
  induction detour with
  | nil => exact failed
  | cons task detour ih =>
    have cell := Descent.directCell_error h failed
    cases h.formulas with
    | cons _ _ called =>
      exact ih h.outer (called.direct_error sound h.outer.fresh cell)

end Descent

namespace Consistent

theorem descent (h : m.Consistent index current) :
    Descent index current m.memo m.root m.nested :=
  ⟨h.nested, h.entries ▸ h.fresh, h.distinct⟩

theorem direct_top (h : m.Consistent index current) (visited : m.top.pending = []) :
    index.direct (pathTo current m.nested) m.top.body = m.top.value m.memo :=
  h.sound.direct h.descent.fresh (h.passed.known visited)

theorem directCell_error {a : Address} {as : List Address} {f : Failure}
    (h : m.Consistent index current) (next : m.top.pending = a :: as)
    (failed : index.directCell (pathTo current m.nested) a = .error f) :
    index.direct (pathTo current m.nested) m.top.body = .error f :=
  (h.passed.visit next).direct_error h.sound h.descent.fresh failed

/-- A resolution that does not exceed the limit ends with what the innermost formula comes to
    without any memo. -/
theorem direct_top_of_ends (h : m.Consistent s.index current) (ends : Ends s m outcome) :
    s.index.direct (pathTo current m.nested) m.top.body = outcome ∨
      s.Exceeded outcome := by
  cases ends with
  | finished bottom visited =>
    rw [← top_of_nil bottom] at visited ⊢
    exact .inl (h.direct_top visited)
  | failed visited value => exact .inl ((h.direct_top visited).trans value)
  | circular next _ member =>
    rw [h.entries] at member ⊢
    exact .inl (h.directCell_error next (CellIndex.directCell_of_mem member))
  | unreadable next unseen found _ =>
    have absent := h.not_mem unseen
    rw [h.entries] at absent
    refine .inl (h.directCell_error next ?_)
    rw [CellIndex.directCell_of_not_mem absent, found]
  | tooDeep _ _ _ exceeded => exact .inr ⟨_, _, (Setting.maxDepth_of_exceeded? exceeded).1, rfl⟩

theorem direct_of_ends (h : m.Consistent s.index current) (ends : Ends s m outcome)
    (unlimited : s.maxDepth = none) : s.index.direct current.toList m.root.body = outcome := by
  have bottom : pathTo current [] = current.toList := by simp [pathTo]
  rcases h.direct_top_of_ends ends with found | ⟨limit, cell, limited, _⟩
  · cases outcome with
    | ok x =>
      obtain ⟨nested, -⟩ := ends.of_ok
      rw [top_of_nil nested, nested, bottom] at found
      exact found
    | error f =>
      have descent := h.descent
      unfold top at found
      rw [← List.append_nil m.nested] at descent found
      rw [← bottom]
      exact descent.direct_error h.sound found
  · cases unlimited.symm.trans limited

end Consistent

end Machine

namespace Resolver

variable {table : CellTable} {name : Option CellName} {r : Resolver} {depth : Option Int}
  {text body : String}

theorem ofTable_eq_ok (fresh : ofTable table name depth = .ok r) (other : Option Int) :
    ofTable table name other = .ok (ofIndex r.index r.current other) := by
  unfold ofTable at fresh ⊢
  cases indexed : CellIndex.ofTable table with
  | error f =>
    rw [indexed] at fresh
    cases fresh
  | ok index =>
    rw [indexed] at fresh
    cases name with
    | none =>
      cases fresh
      rfl
    | some name =>
      cases parsed : name.toAddress with
      | error f =>
        simp only [parsed] at fresh
        cases fresh
      | ok a =>
        simp only [parsed] at fresh ⊢
        cases fresh
        rfl

theorem eq_ofIndex (fresh : ofTable table name depth = .ok r) :
    r = ofIndex r.index r.current depth := by
  have again := ofTable_eq_ok fresh depth
  rw [fresh] at again
  exact Except.ok.inj again

theorem index_of_ofTable (fresh : ofTable table name depth = .ok r) :
    CellIndex.ofTable table = .ok r.index := by
  unfold ofTable at fresh
  cases indexed : CellIndex.ofTable table with
  | error f =>
    rw [indexed] at fresh
    cases fresh
  | ok index =>
    rw [indexed] at fresh
    cases name with
    | none =>
      cases fresh
      rfl
    | some name =>
      obtain ⟨a, -, rfl⟩ := Except.map_eq_ok fresh
      rfl

theorem ofTable_none {index : CellIndex} (indexed : CellIndex.ofTable table = .ok index)
    (depth : Option Int) : ofTable table none depth = .ok (ofIndex index none depth) := by
  rw [ofTable, indexed]

theorem ofTable_some {index : CellIndex} {named : CellName} {a : Address}
    (indexed : CellIndex.ofTable table = .ok index) (stands : named.toAddress = .ok a)
    (depth : Option Int) :
    ofTable table (some named) depth = .ok (ofIndex index (some a) depth) := by
  unfold ofTable
  rw [indexed]
  simp only [stands]
  rfl

theorem exists_toAddress {named : CellName} (fresh : ofTable table (some named) depth = .ok r) :
    ∃ a, named.toAddress = .ok a ∧ r = ofIndex r.index (some a) depth := by
  have indexed := index_of_ofTable fresh
  unfold ofTable at fresh
  rw [indexed] at fresh
  obtain ⟨a, stands, same⟩ := Except.map_eq_ok fresh
  exact ⟨a, stands, same.symm⟩

theorem sound_of_ofTable (fresh : ofTable table name depth = .ok r) :
    r.index.Sound r.current r.memo := by
  rw [eq_ofIndex fresh]
  exact .nil

theorem resolve_of_literal (literal : formulaBody? text = none) :
    r.resolve text = ⟨.ok (.double (Literal.value text).1), r, (Literal.value text).2⟩ := by
  unfold resolve
  rw [literal]

theorem resolve_of_unreadable {f : Failure} (formula : formulaBody? text = some body)
    (parsed : Expr.parse body = .error f) :
    r.resolve text = ⟨.error f, { r with stack := .ofCurrent r.current }, []⟩ := by
  unfold resolve
  rw [formula]
  simp only [parsed]

theorem resolve_of_formula {e : Expr} (formula : formulaBody? text = some body)
    (parsed : Expr.parse body = .ok e) : r.resolve text = r.resolveExpr e := by
  unfold resolve
  rw [formula]
  simp only [parsed]

/-- All that can become of a text: a literal counts as a number, a formula that is none fails, and the
    expression of every other one is resolved. -/
theorem resolve_cases (r : Resolver) (text : String) :
    (formulaBody? text = none ∧
      r.resolve text = ⟨.ok (.double (Literal.value text).1), r, (Literal.value text).2⟩) ∨
    ∃ body, formulaBody? text = some body ∧
      ((∃ f, Expr.parse body = .error f ∧
        r.resolve text = ⟨.error f, { r with stack := .ofCurrent r.current }, []⟩) ∨
      ∃ e, Expr.parse body = .ok e ∧ r.resolve text = r.resolveExpr e) := by
  cases formula : formulaBody? text with
  | none => exact .inl ⟨rfl, resolve_of_literal formula⟩
  | some body =>
    refine .inr ⟨body, rfl, ?_⟩
    cases parsed : Expr.parse body with
    | error f => exact .inl ⟨f, rfl, resolve_of_unreadable formula parsed⟩
    | ok e => exact .inr ⟨e, rfl, resolve_of_formula formula parsed⟩

theorem resolveExpr_reaches (sound : r.index.Sound r.current r.memo) (e : Expr) :
    ∃ last : Machine, (Machine.start r.current r.memo e).Reaches r.setting last ∧
      last.Consistent r.index r.current ∧ last.root.body = e ∧
      Machine.Ends r.setting last (r.resolveExpr e).outcome ∧
      (r.resolveExpr e).resolver.memo = last.memo := by
  have start : (Machine.start r.current r.memo e).Consistent r.setting.index r.current :=
    .start sound e
  exact Machine.run_spec start start.aligned

theorem resolveExpr_spec (sound : r.index.Sound r.current r.memo) (e : Expr) :
    ∃ last : Machine, last.Consistent r.index r.current ∧ last.root.body = e ∧
      Machine.Ends r.setting last (r.resolveExpr e).outcome ∧
      (r.resolveExpr e).resolver.memo = last.memo := by
  obtain ⟨last, -, ended⟩ := resolveExpr_reaches sound e
  exact ⟨last, ended⟩

theorem resolveExpr_ofIndex (index : CellIndex) (current : Option Address) (e : Expr) :
    ((ofIndex index current none).resolveExpr e).outcome = index.direct current.toList e := by
  have sound : (ofIndex index current none).index.Sound current [] := .nil
  obtain ⟨last, consistent, body, ends, -⟩ := resolveExpr_spec sound e
  rw [← body] at ends ⊢
  exact (consistent.direct_of_ends ends rfl).symm

theorem resolve_ofIndex (formula : formulaBody? text = some body) :
    ((ofIndex index current none).resolve text).outcome =
      (Expr.parse body).bind (index.direct current.toList) := by
  cases parsed : Expr.parse body with
  | error f =>
    rw [resolve_of_unreadable formula parsed]
    rfl
  | ok e =>
    rw [resolve_of_formula formula parsed]
    exact resolveExpr_ofIndex index current e

/-- With the values it keeps, its stack and its steps, a resolver without a limit finds just what
    the recursion over the references finds, which keeps nothing. -/
theorem resolve_eq_directText (fresh : ofTable table name none = .ok r) (text : String) :
    (r.resolve text).outcome = r.index.directText r.current text := by
  have unlimited : r.setting.maxDepth = none := by
    rw [eq_ofIndex fresh]
    rfl
  unfold CellIndex.directText
  cases formula : formulaBody? text with
  | none => rw [resolve_of_literal formula]
  | some body =>
    cases parsed : Expr.parse body with
    | error f =>
      rw [resolve_of_unreadable formula parsed]
      simp only [parsed]
      rfl
    | ok e =>
      rw [resolve_of_formula formula parsed]
      obtain ⟨last, consistent, same, ends, -⟩ := resolveExpr_spec (sound_of_ofTable fresh) e
      have outcome := Machine.Consistent.direct_of_ends (s := r.setting) consistent ends unlimited
      rw [same] at outcome
      simp only [parsed]
      exact outcome.symm

theorem resolve_eq_directText_of_loop :
    ∃ r, ofTable [(.text "A1", .text "=B1+1"), (.text "B1", .text "=A1")] (some (.text "C1")) none =
      .ok r ∧ (r.resolve "=SUM(B1,A1)").outcome = r.index.directText r.current "=SUM(B1,A1)" := by
  have fresh : ofTable [(.text "A1", .text "=B1+1"), (.text "B1", .text "=A1")]
      (some (.text "C1")) none = .ok (ofIndex [(⟨0, 0⟩, { formula := some "=B1+1" }),
        (⟨1, 0⟩, { formula := some "=A1" })] (some ⟨2, 0, false, false⟩) none) := by rfl
  exact ⟨_, fresh, resolve_eq_directText fresh _⟩

end Resolver

end Spreadsheet
