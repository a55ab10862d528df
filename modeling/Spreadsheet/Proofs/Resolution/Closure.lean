import Spreadsheet.Proofs.Resolution.History
import Spreadsheet.Proofs.Resolution.Reachability
import Spreadsheet.Proofs.Resolution.Separate

namespace Spreadsheet

variable {index : CellIndex} {current : Option Address} {memo : Memo} {c d : Coordinate}
  {x : Number} {e : Expr} {body text : String}

namespace CellIndex

/-- The value of a cell by itself: zero if it holds nothing, the number of its literal, or what every
    reference to its formula comes to for a resolver that stands nowhere, has no limit and has
    resolved nothing. -/
def IsOwnValue (index : CellIndex) (c : Coordinate) (x : Number) : Prop :=
  match index.get? c with
  | none => x = .double 0.0
  | some content =>
    if content.isFormula then
      ∀ spelled a, Address.parse spelled = .ok a → a.coordinate = c →
        ((Resolver.ofIndex index none none).resolve ("=" ++ spelled)).outcome = .ok x
    else x = .double (Literal.value (content.value.getD "")).1

theorem resolve_reference {spelled : String} {a : Address} (valid : Address.parse spelled = .ok a)
    (found : index.finding a.coordinate = .formula e) :
    ((Resolver.ofIndex index none none).resolve ("=" ++ spelled)).outcome =
      index.directCell [] a := by
  have starts : formulaBody? ("=" ++ spelled) = some spelled := by
    rw [formulaBody?_eq_some_iff, ← String.toList_inj, String.toList_append]
    exact String.toList_ofList.symm
  have cell : index.directCell [] a = index.direct [a] e := by
    rw [directCell_of_not_mem List.not_mem_nil, found, List.nil_append]
  rw [Resolver.resolve_ofIndex starts, Expr.parse_address valid]
  obtain ⟨body, parsed⟩ := exists_parse_of_finding found
  exact direct_ref fun x value =>
    isFiniteDouble_of_direct (Expr.not_hasEmptySum_of_parse parsed) (cell ▸ value)

theorem Sound.isOwnValue (sound : index.Sound current memo) (value : memo.get? c = some x) :
    index.IsOwnValue c x := by
  have direct : ∀ a : Address, a.coordinate = c → index.directCell [] a = .ok x := by
    rintro a rfl
    exact sound.directCell nofun value
  have cell := direct c.toAddress rfl
  rw [directCell_of_not_mem List.not_mem_nil, Coordinate.toAddress_coordinate] at cell
  unfold IsOwnValue
  cases holds : index.get? c with
  | none =>
    rw [finding_of_none holds] at cell
    exact (Except.ok.inj cell).symm
  | some content =>
    cases formula : content.body? with
    | none =>
      rw [finding_of_literal holds formula] at cell
      simp only [CellContent.isFormula, formula, Option.isSome_none]
      exact (Except.ok.inj cell).symm
    | some body =>
      simp only [CellContent.isFormula, formula, Option.isSome_some, if_true]
      rintro spelled a valid rfl
      rw [finding_of_body? holds formula] at cell
      cases parsed : Expr.parse body with
      | error f =>
        rw [parsed] at cell
        cases cell
      | ok e =>
        rw [resolve_reference valid (finding_of_formula holds formula parsed)]
        exact direct a rfl

theorem LeadsTo.isNamed (h : index.LeadsTo text c) : c.IsNamed := by
  obtain ⟨body, e, -, parsed, reached⟩ := h
  exact reached.isNamed parsed

end CellIndex

namespace Resolver

variable {table : CellTable} {name : Option CellName} {r used : Resolver} {depth : Option Int}

theorem resolveExpr_grows (sound : r.index.Sound r.current r.memo) (e : Expr) :
    r.memo.Grows (r.resolveExpr e).resolver.memo (r.index.Reachable e) ∧
      ∀ x, (r.resolveExpr e).outcome = .ok x →
        ∀ c, r.index.Reachable e c → (r.resolveExpr e).resolver.memo.Has c := by
  have start : (Machine.start r.current r.memo e).Consistent r.setting.index r.current :=
    .start sound e
  obtain ⟨last, reached, consistent, -, -, memo⟩ := resolveExpr_reaches sound e
  refine ⟨memo ▸ reached.grows start, fun x value c led => ?_⟩
  have known : ∀ d ∈ e.coordinates, last.memo.Has d := fun d member =>
    memo ▸ has_of_resolveExpr sound value member
  rw [memo]
  exact led.has consistent.sound known

theorem resolve_grows (sound : r.index.Sound r.current r.memo) (text : String) :
    r.memo.Grows (r.resolve text).resolver.memo (r.index.LeadsTo text) := by
  rcases r.resolve_cases text with
    ⟨-, same⟩ | ⟨body, formula, ⟨f, -, same⟩ | ⟨e, parsed, same⟩⟩
  · rw [same]
    exact .refl r.memo
  · rw [same]
    exact .refl r.memo
  · obtain ⟨within, introduced⟩ := (resolveExpr_grows sound e).1
    rw [same]
    exact ⟨within, fun c has => (introduced c has).imp id
      (CellIndex.leadsTo_iff formula parsed).mpr⟩

theorem has_of_resolve (sound : r.index.Sound r.current r.memo)
    (value : (r.resolve text).outcome = .ok x) (led : r.index.LeadsTo text c) :
    (r.resolve text).resolver.memo.Has c := by
  obtain ⟨body, e, formula, parsed, reached⟩ := led
  rw [resolve_of_formula formula parsed] at value ⊢
  exact (resolveExpr_grows sound e).2 x value c reached

theorem Continues.isNamed (h : r.Continues used) (named : ∀ c, used.memo.Has c → c.IsNamed)
    (requests : List Request) :
    ∀ c, (requests.foldl Resolver.serve used).memo.Has c → c.IsNamed := by
  induction requests generalizing used with
  | nil => exact named
  | cons request requests ih =>
    refine ih (h.serve request) fun c has => ?_
    cases request with
    | limit maxDepth => exact named c has
    | resolve text =>
      rcases (resolve_grows h.sound text).introduced c has with before | led
      · exact named c before
      · exact led.isNamed

/-- Whatever a resolver was asked, it has values of cells other than the current address, each one
    the value of the cell by itself, and values of all that a formula with a value references. A
    formula that comes to a value gives values to the cells that it leads to, and to no other ones. -/
theorem memo_after_requests (fresh : ofTable table name depth = .ok r) (requests : List Request) :
    let used := requests.foldl serve r
    (∀ c, used.memo.Has c → c.IsNamed ∧ ¬ StandsAt r.current c) ∧
      (∀ c x, used.memo.get? c = some x → r.index.IsOwnValue c x) ∧
      (∀ c d, used.memo.Has c → r.index.References c d → used.memo.Has d) ∧
      ∀ text x, (used.resolve text).outcome = .ok x →
        ∀ c, (used.resolve text).resolver.memo.Has c ↔
          used.memo.Has c ∨ r.index.LeadsTo text c := by
  intro used
  have start : r.Continues r := ⟨rfl, rfl, sound_of_ofTable fresh⟩
  have empty : ∀ c, r.memo.Has c → c.IsNamed := by
    rw [eq_ofIndex fresh]
    exact nofun
  have named := start.isNamed empty requests
  have continues : r.Continues used := start.serveAll requests
  have sound := continues.sound
  rw [← continues.index, ← continues.current]
  refine ⟨fun c has => ⟨named c has, sound.away has⟩, fun c x => sound.isOwnValue,
    fun c d => sound.closed, fun text x value c => ⟨(resolve_grows sound text).introduced c, ?_⟩⟩
  rintro (before | led)
  · exact (resolve_grows sound text).within.has before
  · exact has_of_resolve sound value led

theorem memo_after_requests_of_loop :
    let table : CellTable := [(.text "A1", .text "=C1+B1"), (.text "B1", .text "=A1")]
    let requests : List Request := [.resolve "=B1", .limit (some 5), .resolve "=C1"]
    ∃ r, ofTable table (some (.text "D1")) none = .ok r ∧
      let used := requests.foldl serve r
      (∀ c, used.memo.Has c → c.IsNamed ∧ ¬ StandsAt r.current c) ∧
        (∀ c x, used.memo.get? c = some x → r.index.IsOwnValue c x) ∧
        (∀ c d, used.memo.Has c → r.index.References c d → used.memo.Has d) ∧
        ∀ text x, (used.resolve text).outcome = .ok x →
          ∀ c, (used.resolve text).resolver.memo.Has c ↔
            used.memo.Has c ∨ r.index.LeadsTo text c := by
  intro table requests
  have fresh : ofTable table (some (.text "D1")) none =
      .ok (ofIndex [(⟨0, 0⟩, { formula := some "=C1+B1" }), (⟨1, 0⟩, { formula := some "=A1" })]
        (some ⟨3, 0, false, false⟩) none) := rfl
  exact ⟨_, fresh, memo_after_requests fresh requests⟩

end Resolver

end Spreadsheet
