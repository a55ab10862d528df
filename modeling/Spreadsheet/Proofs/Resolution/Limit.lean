import Spreadsheet.Proofs.Formula.Layout
import Spreadsheet.Proofs.Resolution.Agreement
import Spreadsheet.Proofs.Resolution.Cycle

namespace Spreadsheet

namespace Machine

variable {s : Setting} {index : CellIndex} {current : Option Address} {memo : Memo}
  {m m' : Machine} {root : Task} {nested : List (Address × Task)} {limit : Nat} {bound : Int}
  {cell : Coordinate}

theorem Nested.isFormula (h : Nested index memo root nested) :
    ∀ f ∈ nested, index.IsFormula f.1.coordinate := by
  induction h with
  | nil => exact nofun
  | cons rest formula _ ih =>
    exact List.forall_mem_cons.mpr ⟨CellIndex.isFormula_of_finding (by simp [formula]), ih⟩

theorem Moves.depth_le (moves : Moves s m m') (limited : s.maxDepth = some (limit : Int))
    (le : m.depth ≤ limit + 1) : m'.depth ≤ limit + 1 := by
  cases moves with
  | skipped => rwa [proceed_depth]
  | @settled a as x notes =>
    have same : ((m.proceed as).settle a x notes).depth = (m.proceed as).depth := rfl
    rwa [same, proceed_depth]
  | @entered a as e _ _ _ allowed =>
    have deeper : ((m.proceed as).enter a e).depth = (m.proceed as).depth + 1 := rfl
    have within := Setting.exceeded?_eq_none.mp allowed limit limited
    rw [deeper, proceed_depth]
    omega
  | @left b t outer x stack nested =>
    have shallower : m.depth = outer.length + 1 + 1 := by rw [depth, nested, List.length_cons]
    change outer.length + 1 ≤ limit + 1
    omega

theorem Reaches.depth_le (reached : m.Reaches s m') (h : m.Consistent s.index current)
    (limited : s.maxDepth = some (limit : Int)) (le : m.depth ≤ limit + 1) :
    m'.depth ≤ limit + 1 := by
  induction reached with
  | refl => exact le
  | tail before step ih =>
    have between := Reaches.consistent before h
    exact (moves_of_step between.aligned step).depth_le limited ih

theorem Ends.of_tooDeep (h : Ends s m (.error (.tooDeep bound cell))) :
    ∃ a as, m.top.pending = a :: as ∧ m.Unseen a ∧ s.index.IsFormula a.coordinate ∧
      s.exceeded? m.depth = some bound ∧ cell = a.coordinate := by
  generalize same : (Except.error (.tooDeep bound cell) : Except Failure Number) = outcome at h
  cases h with
  | finished _ _ => exact absurd (value_failsLocally _ _ _ same.symm) id
  | failed _ value =>
    cases same
    exact absurd (value_failsLocally _ _ _ value) id
  | circular => cases same
  | unreadable _ _ found _ =>
    cases same
    exact absurd (CellIndex.finding_failure_isLocal found) id
  | tooDeep next unseen formula exceeded =>
    cases Failure.eq_of_naming (Except.error.inj same).symm nofun
    exact ⟨_, _, next, unseen, CellIndex.isFormula_of_finding formula, exceeded, rfl⟩

/-- Where a limit is exceeded, the nested formulas and the next one are as many as it takes. -/
theorem Consistent.exists_chain (h : m.Consistent s.index current)
    (limited : s.maxDepth = some (limit : Int)) (le : m.depth ≤ limit + 1)
    (ends : Ends s m (.error (.tooDeep bound cell))) :
    bound = limit ∧ ∃ c cs, c ∈ m.root.body.coordinates ∧ (c :: cs).length = limit + 1 ∧
      (c :: cs).Nodup ∧ (∀ d ∈ c :: cs, s.index.IsFormula d) ∧ s.index.Chain (c :: cs) ∧
      (c :: cs).getLast? = some cell := by
  obtain ⟨a, as, next, unseen, formula, exceeded, rfl⟩ := ends.of_tooDeep
  obtain ⟨c, cs, cells, first, chain⟩ :=
    h.nested.exists_chain (h.passed.visit next).referenced
  have least : bound = limit ∧ limit < m.depth := by
    simp only [Setting.exceeded?, limited] at exceeded
    split at exceeded
    · cases exceeded
      exact ⟨rfl, by omega⟩
    · cases exceeded
  -- The current address heads the path. The rest of it are the cells of the chain.
  have distinct : ((pathTo current m.nested ++ [a]).map Address.coordinate).Nodup := by
    have absent := h.not_mem unseen
    rw [h.entries] at absent
    rw [List.map_append, List.map_singleton]
    exact List.nodup_append_comm.mp (List.nodup_cons.mpr ⟨absent, h.distinct⟩)
  rw [pathTo, List.append_assoc, List.map_append, List.map_append, List.map_singleton, cells]
    at distinct
  refine ⟨least.1, c, cs, first, ?_, (List.nodup_append.mp distinct).2.1, ?_, chain, ?_⟩
  · have count := congrArg List.length cells
    have depth : m.depth = m.nested.length + 1 := rfl
    simp only [List.length_append, List.length_map, List.length_reverse, List.length_singleton]
      at count
    omega
  · rw [← cells]
    refine List.forall_mem_append.mpr ⟨?_, List.forall_mem_singleton.mpr formula⟩
    intro d member
    obtain ⟨b, among, rfl⟩ := List.mem_map.mp member
    obtain ⟨f, nested, rfl⟩ := List.mem_map.mp (List.mem_reverse.mp among)
    exact h.nested.isFormula f nested
  · rw [← cells, List.getLast?_concat]

end Machine

namespace Resolver

variable {table : CellTable} {name : Option CellName} {r : Resolver} {limit : Nat}

theorem mem_referencedCells {text body : String} {e : Expr} {c : Coordinate}
    (formula : formulaBody? text = some body) (parsed : Expr.parse body = .ok e) :
    c ∈ referencedCells text ↔ c ∈ e.coordinates := by
  unfold referencedCells extractReferences
  rw [formula]
  simp only [parsed]
  rfl

theorem exists_expr_of_tooDeep {text : String} {bound : Int} {cell : Coordinate}
    (deep : (r.resolve text).outcome = .error (.tooDeep bound cell)) :
    ∃ body e, formulaBody? text = some body ∧ Expr.parse body = .ok e ∧
      (r.resolveExpr e).outcome = .error (.tooDeep bound cell) := by
  rcases r.resolve_cases text with
    ⟨-, same⟩ | ⟨body, formula, ⟨f, parsed, same⟩ | ⟨e, parsed, same⟩⟩
  · rw [same] at deep
    cases deep
  · rw [same] at deep
    cases deep
    exact absurd (Expr.parse_failsLocally body _ parsed) id
  · exact ⟨body, e, formula, parsed, same ▸ deep⟩

theorem exists_chain_of_tooDeep {e : Expr} {bound : Int} {cell : Coordinate}
    (sound : r.index.Sound r.current r.memo) (limited : r.maxDepth = some (limit : Int))
    (deep : (r.resolveExpr e).outcome = .error (.tooDeep bound cell)) :
    bound = limit ∧ ∃ c cs, c ∈ e.coordinates ∧ (c :: cs).length = limit + 1 ∧
      (c :: cs).Nodup ∧ (∀ d ∈ c :: cs, r.index.IsFormula d) ∧ r.index.Chain (c :: cs) ∧
      (c :: cs).getLast? = some cell := by
  have start : (Machine.start r.current r.memo e).Consistent r.setting.index r.current :=
    .start sound e
  obtain ⟨last, reached, consistent, same, ends, -⟩ := resolveExpr_reaches sound e
  rw [deep] at ends
  have le : last.depth ≤ limit + 1 := reached.depth_le start limited (Nat.le_add_left 1 limit)
  obtain ⟨least, c, cs, first, chain⟩ := consistent.exists_chain limited le ends
  rw [same] at first
  exact ⟨least, c, cs, first, chain⟩

/-- A limit bounds the formulas that are nested at any time. An outcome that does not exceed it is the
    outcome under every larger limit and under none, and to exceed it takes a chain of as many
    distinct formula cells and one more. -/
theorem resolve_limited (fresh : ofTable table name (some (limit : Int)) = .ok r)
    (text : String) :
    (∀ body e m, formulaBody? text = some body → Expr.parse body = .ok e →
      (Machine.start r.current r.memo e).Reaches r.setting m → m.nested.length ≤ limit) ∧
    (¬ r.setting.Exceeded (r.resolve text).outcome →
      ∀ other : Option Int, (∀ larger ∈ other, (limit : Int) ≤ larger) →
        ∃ r', ofTable table name other = .ok r' ∧
          (r'.resolve text).outcome = (r.resolve text).outcome) ∧
    ∀ bound cell, (r.resolve text).outcome = .error (.tooDeep bound cell) →
      bound = limit ∧ ∃ c cs, c ∈ referencedCells text ∧ (c :: cs).length = limit + 1 ∧
        (c :: cs).Nodup ∧ (∀ d ∈ c :: cs, r.index.IsFormula d) ∧ r.index.Chain (c :: cs) ∧
        (c :: cs).getLast? = some cell := by
  have sound := sound_of_ofTable fresh
  have limited : r.maxDepth = some (limit : Int) := by
    rw [eq_ofIndex fresh]
    rfl
  refine ⟨fun body e m _ _ reached => ?_, fun within other larger => ?_, fun bound cell deep => ?_⟩
  · have shallow : (Machine.start r.current r.memo e).depth ≤ limit + 1 := Nat.le_add_left 1 limit
    exact Nat.le_of_succ_le_succ (reached.depth_le (.start sound e) limited shallow)
  · refine ⟨_, ofTable_eq_ok fresh other, ?_⟩
    rw [eq_ofIndex fresh] at within ⊢
    refine resolve_admitted (fun _ _ => rfl) (fun n allowed => ?_) fun exceeded =>
      absurd exceeded within
    rw [Setting.exceeded?_eq_none] at allowed ⊢
    exact fun bound member => (allowed limit rfl).trans (larger bound member)
  · obtain ⟨body, e, formula, parsed, deep⟩ := exists_expr_of_tooDeep deep
    obtain ⟨least, c, cs, first, chain⟩ := exists_chain_of_tooDeep sound limited deep
    exact ⟨least, c, cs, (mem_referencedCells formula parsed).mpr first, chain⟩

theorem resolve_limited_of_loop :
    let table : CellTable := [(.text "A1", .text "=B1"), (.text "B1", .text "=A1")]
    ∃ r, ofTable table none (some ((1 : Nat) : Int)) = .ok r ∧
      (∀ body e m, formulaBody? "=A1" = some body → Expr.parse body = .ok e →
        (Machine.start r.current r.memo e).Reaches r.setting m → m.nested.length ≤ 1) ∧
      (r.resolve "=A1").outcome = .error (.tooDeep 1 ⟨1, 0⟩) ∧
      (∃ c cs, c ∈ referencedCells "=A1" ∧ (c :: cs).length = 1 + 1 ∧ (c :: cs).Nodup ∧
        (∀ d ∈ c :: cs, r.index.IsFormula d) ∧ r.index.Chain (c :: cs) ∧
        (c :: cs).getLast? = some ⟨1, 0⟩) ∧
      ¬ r.setting.Exceeded (r.resolve "=C1").outcome ∧
      ∃ r', ofTable table none none = .ok r' ∧
        (r'.resolve "=C1").outcome = (r.resolve "=C1").outcome := by
  intro table
  let r := ofIndex [(⟨0, 0⟩, { formula := some "=B1" }), (⟨1, 0⟩, { formula := some "=A1" })] none
    (some ((1 : Nat) : Int))
  have fresh : ofTable table none (some ((1 : Nat) : Int)) = .ok r := rfl
  have parsed : Expr.parse "A1" = .ok (.ref ⟨⟨0, 0, false, false⟩, "A1"⟩) := Expr.parse_address rfl
  have inner : Expr.parse "B1" = .ok (.ref ⟨⟨1, 0, false, false⟩, "B1"⟩) := Expr.parse_address rfl
  let m := Machine.start none [] (.ref ⟨⟨0, 0, false, false⟩, "A1"⟩)
  have found : r.setting.index.finding (Address.coordinate ⟨0, 0, false, false⟩) =
      .formula (.ref ⟨⟨1, 0, false, false⟩, "B1"⟩) :=
    CellIndex.expr?_eq_some_iff.mp (congrArg Except.toOption inner)
  have entered : m.step r.setting =
      .next ((m.proceed []).enter ⟨0, 0, false, false⟩ (.ref ⟨⟨1, 0, false, false⟩, "B1"⟩)) :=
    Machine.Moves.step (.entered rfl ⟨Memo.not_has_iff.mpr rfl, rfl⟩ found rfl)
  have writable : IsWritable 1 := by decide +kernel
  have deep : (r.resolve "=A1").outcome = .error (.tooDeep 1 ⟨1, 0⟩) := by
    have ended := (Machine.run_next (Machine.start_aligned ..) entered).trans
      (Machine.run_done _ rfl)
    have exceeded : (r.resolveExpr (.ref ⟨⟨0, 0, false, false⟩, "A1"⟩)).outcome =
        .error (.naming 1 (.tooDeep 1 ⟨1, 0⟩)) := congrArg Prod.fst ended
    rw [resolve_of_formula rfl parsed, exceeded, Failure.naming_of_isWritable writable]
  have missing : Expr.parse "C1" = .ok (.ref ⟨⟨2, 0, false, false⟩, "C1"⟩) := Expr.parse_address rfl
  have within : ¬ r.setting.Exceeded (r.resolve "=C1").outcome := by
    intro exceeded
    obtain ⟨cell, deep⟩ := (@Setting.exceeded_iff _ _ 1 rfl writable).mp exceeded
    obtain ⟨-, c, cs, first, -, -, formulas, -⟩ := (resolve_limited fresh "=C1").2.2 1 cell deep
    have same := List.mem_singleton.mp ((mem_referencedCells rfl missing).mp first)
    obtain ⟨content, holds, -⟩ := formulas c List.mem_cons_self
    rw [same] at holds
    cases holds
  obtain ⟨nested, -, chain⟩ := resolve_limited fresh "=A1"
  exact ⟨r, fresh, nested, deep, (chain 1 ⟨1, 0⟩ deep).2, within,
    (resolve_limited fresh "=C1").2.1 within none nofun⟩

end Resolver

end Spreadsheet
