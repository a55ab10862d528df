import Mathlib.Algebra.Order.BigOperators.Group.List
import Spreadsheet.Proofs.Cell.Table
import Spreadsheet.Proofs.Formula.Layout
import Spreadsheet.Proofs.Resolution.Refinement

namespace Spreadsheet

namespace CellIndex

variable {index : CellIndex} {c : Coordinate} {e : Expr}

/-- How many steps a formula cell takes: one for each of its references, and one to end it. -/
def effort (index : CellIndex) (c : Coordinate) : Nat :=
  match index.expr? c with
  | none => 0
  | some e => e.cells.length + 1

def work (index : CellIndex) : Nat := (index.map fun cell => index.effort cell.1).sum

theorem effort_of_finding (found : index.finding c = .formula e) :
    index.effort c = e.cells.length + 1 := by
  unfold effort
  rw [expr?_eq_some_iff.mpr found]

theorem exists_mem_of_finding (found : index.finding c = .formula e) :
    ∃ content, (c, content) ∈ index := by
  have formula : index.IsFormula c := isFormula_of_finding (by simp [found])
  obtain ⟨content, holds, -⟩ := formula
  exact ⟨content, mem_of_get? holds⟩

theorem length_le_countP {cells : List Coordinate} (distinct : cells.Nodup)
    (formulas : ∀ c ∈ cells, index.IsFormula c) :
    cells.length ≤ index.countP (·.2.isFormula) := by
  have subset : cells ⊆ (index.filter (·.2.isFormula)).map Prod.fst := by
    intro c member
    obtain ⟨content, holds, formula⟩ := formulas c member
    exact List.mem_map.mpr ⟨_, List.mem_filter.mpr ⟨mem_of_get? holds, formula⟩, rfl⟩
  have le := (List.subperm_of_subset distinct subset).length_le
  rwa [List.length_map, ← List.countP_eq_length_filter] at le

end CellIndex

namespace Machine

variable {s : Setting} {m m' m'' : Machine} {a b : Address} {as : List Address} {t : Task}
  {outer : List (Address × Task)} {stack : CallStack} {c : Coordinate} {n : Nat}
  {cells : List Coordinate}

/-- The cell has a value or is on the stack, so its formula is not begun any more. -/
def Touched (m : Machine) (c : Coordinate) : Prop := m.memo.Has c ∨ c ∈ m.stack.keys

def untouchedCell (m : Machine) (c : Coordinate) : Bool :=
  (m.memo.get? c).isNone && ! m.stack.keys.contains c

def aheadOf (s : Setting) (m : Machine) (cells : CellIndex) : Nat :=
  ((cells.filter fun cell => m.untouchedCell cell.1).map fun cell => s.index.effort cell.1).sum

/-- The steps that a resolution may still take. -/
def load (s : Setting) (m : Machine) : Nat := m.remaining + m.aheadOf s s.index

theorem untouchedCell_iff : m.untouchedCell c = true ↔ ¬ m.Touched c := by
  unfold untouchedCell Touched
  rw [not_or, Memo.not_has_iff]
  simp

theorem Unseen.not_touched (unseen : m.Unseen a) : ¬ m.Touched a.coordinate := by
  rintro (has | member)
  · exact unseen.unknown has
  · have present : m.stack.contains a = true := by simpa [CallStack.contains] using member
    cases present.symm.trans unseen.absent

theorem aheadOf_le (touched : ∀ c, m.Touched c → m'.Touched c) (cells : CellIndex) :
    m'.aheadOf s cells ≤ m.aheadOf s cells := by
  refine List.Sublist.sum_le_sum (List.Sublist.map _ ?_) fun _ _ => Nat.zero_le _
  refine List.monotone_filter_right _ fun cell untouched => ?_
  exact untouchedCell_iff.mpr fun before => untouchedCell_iff.mp untouched (touched _ before)

theorem effort_add_aheadOf_le {content : CellContent} (touched : ∀ c, m.Touched c → m'.Touched c)
    (member : (c, content) ∈ s.index) (before : ¬ m.Touched c) (after : m'.Touched c) :
    s.index.effort c + m'.aheadOf s s.index ≤ m.aheadOf s s.index := by
  obtain ⟨front, back, split⟩ := List.append_of_mem member
  have front_le := aheadOf_le (s := s) touched front
  have back_le := aheadOf_le (s := s) touched back
  have counted : m.untouchedCell c = true := untouchedCell_iff.mpr before
  have uncounted : m'.untouchedCell c = false :=
    Bool.eq_false_iff.mpr fun untouched => untouchedCell_iff.mp untouched after
  unfold aheadOf at front_le back_le ⊢
  generalize s.index.effort = effort at front_le back_le ⊢
  rw [split]
  simp only [List.filter_append, List.filter_cons, counted, uncounted, if_true, Bool.false_eq_true,
    if_false, List.map_append, List.map_cons, List.sum_append, List.sum_cons]
  omega

theorem aheadOf_start_le (s : Setting) (m : Machine) : m.aheadOf s s.index ≤ s.index.work :=
  List.Sublist.sum_le_sum (List.Sublist.map _ List.filter_sublist) fun _ _ => Nat.zero_le _

theorem proceed_remaining (next : m.top.pending = a :: as) :
    (m.proceed as).remaining + 1 = m.remaining := by
  unfold proceed remaining
  cases nested : m.nested with
  | nil =>
    rw [top_of_nil nested] at next
    simp [next]
  | cons f outer =>
    obtain ⟨b, t⟩ := f
    rw [top_of_cons nested] at next
    simp only [List.foldr_cons, next, List.length_cons]
    omega

theorem enter_remaining {e : Expr} :
    (m.enter a e).remaining = m.remaining + (e.cells.length + 1) := by
  simp only [enter, remaining, Task.ofExpr, List.foldr_cons]
  omega

theorem Aligned.pop (h : m.Aligned) (nested : m.nested = (b, t) :: outer)
    (popped : m.stack.pop = .ok stack) :
    m.stack.entries = stack.entries ++ [b] ∧ m.stack.keys = stack.keys ++ [b.coordinate] := by
  obtain ⟨d, entries, keys, -⟩ := h.mirrored.pop popped
  obtain ⟨start, ends⟩ := h.nested
  have both : stack.entries ++ [d] = (start ++ (outer.map Prod.fst).reverse) ++ [b] := by
    rw [← entries, ends, nested]
    simp
  obtain ⟨-, last⟩ := List.append_inj' both rfl
  cases last
  exact ⟨entries, keys⟩

theorem enter_keys {e : Expr} (unseen : m.Unseen a) :
    ((m.proceed as).enter a e).stack.keys = m.stack.keys ++ [a.coordinate] := by
  rw [enter_stack, proceed_stack, CallStack.push_keys unseen.absent]

theorem Moves.touched (moves : Moves s m m') (aligned : m.Aligned) (touched : m.Touched c) :
    m'.Touched c := by
  cases moves with
  | skipped =>
    unfold Touched
    rwa [proceed_memo, proceed_stack]
  | settled =>
    unfold Touched
    rw [settle_memo, settle_stack, proceed_memo, proceed_stack]
    exact touched.imp_left fun has => Memo.has_cons_iff.mpr (.inr has)
  | entered next unseen =>
    unfold Touched
    rw [enter_keys unseen, enter_memo, proceed_memo]
    exact touched.imp_right (List.mem_append_left _)
  | left nested visited value popped =>
    have keys := (aligned.pop nested popped).2
    rcases touched with has | member
    · exact .inl (Memo.has_cons_iff.mpr (.inr has))
    · rw [keys, List.mem_append, List.mem_singleton] at member
      rcases member with below | same
      · exact .inr below
      · exact .inl (Memo.has_cons_iff.mpr (.inl same))

/-- Each step lessens what is still to be done. -/
theorem Moves.load_lt (moves : Moves s m m') (aligned : m.Aligned) : m'.load s < m.load s := by
  have touched : ∀ c, m.Touched c → m'.Touched c := fun _ => moves.touched aligned
  have ahead := aheadOf_le (s := s) touched s.index
  unfold load
  cases moves with
  | skipped next =>
    have fewer := proceed_remaining next
    omega
  | @settled a as x notes next =>
    have fewer := proceed_remaining next
    have same : ((m.proceed as).settle a x notes).remaining = (m.proceed as).remaining := rfl
    omega
  | @entered a as e next unseen found =>
    have fewer := proceed_remaining next
    have more : ((m.proceed as).enter a e).remaining = _ := enter_remaining
    obtain ⟨content, member⟩ := CellIndex.exists_mem_of_finding found
    have begun : ((m.proceed as).enter a e).Touched a.coordinate :=
      .inr (by rw [enter_keys unseen]; simp)
    -- The effort of the cell was ahead before, and pays for the references that its formula brings.
    have less := effort_add_aheadOf_le touched member unseen.not_touched begun
    rw [CellIndex.effort_of_finding found] at less
    omega
  | @left b t outer x stack nested =>
    have fewer : m.remaining = m.root.pending.length + (t.pending.length + 1 +
        outer.foldr (fun f n => f.2.pending.length + 1 + n) 0) := by
      rw [remaining, nested, List.foldr_cons]
    simp only [remaining] at fewer ⊢
    omega

def begun (m m' : Machine) : List Coordinate :=
  (m'.nested.take (m'.nested.length - m.nested.length)).map fun f => f.1.coordinate

/-- Some steps from one state to another one, and the cells whose formulas are begun in them. -/
inductive Trace (s : Setting) (m : Machine) : Nat → List Coordinate → Machine → Prop where
  | start : Trace s m 0 [] m
  | next {n : Nat} {cells : List Coordinate} {m' m'' : Machine} (before : Trace s m n cells m')
      (step : m'.step s = .next m'') : Trace s m (n + 1) (cells ++ m'.begun m'') m''

theorem Reaches.exists_trace (reached : m.Reaches s m') : ∃ n cells, m.Trace s n cells m' := by
  induction reached with
  | refl => exact ⟨0, [], .start⟩
  | tail _ step ih =>
    obtain ⟨n, cells, before⟩ := ih
    exact ⟨_, _, before.next step⟩

theorem proceed_nested_length : (m.proceed as).nested.length = m.nested.length := by
  rw [← List.length_map Prod.fst, proceed_nested_cells, List.length_map]

theorem begun_of_length_le (le : m'.nested.length ≤ m.nested.length) : m.begun m' = [] := by
  unfold begun
  rw [Nat.sub_eq_zero_of_le le]
  rfl

theorem begun_enter {e : Expr} : m.begun ((m.proceed as).enter a e) = [a.coordinate] := by
  unfold begun
  simp only [enter, List.length_cons, proceed_nested_length, Nat.add_sub_cancel_left,
    List.take_succ_cons, List.take_zero, List.map_cons, List.map_nil]

/-- What some steps have begun: distinct formula cells, each of which is in progress or has a value,
    and among them all that are in progress. -/
structure Begun (s : Setting) (cells : List Coordinate) (m : Machine) : Prop where
  aligned : m.Aligned
  distinct : cells.Nodup
  formulas : ∀ c ∈ cells, s.index.IsFormula c
  touched : ∀ c ∈ cells, m.Touched c
  nested : ∀ a ∈ m.nested.map Prod.fst, a.coordinate ∈ cells

theorem Begun.keep (h : Begun s cells m) (moves : Moves s m m')
    (fewer : (m'.nested.map Prod.fst).Sublist (m.nested.map Prod.fst)) :
    Begun s (cells ++ m.begun m') m' := by
  have le := fewer.length_le
  rw [List.length_map, List.length_map] at le
  rw [begun_of_length_le le, List.append_nil]
  exact ⟨(step_next h.aligned moves.step).1, h.distinct, h.formulas,
    fun c member => moves.touched h.aligned (h.touched c member),
    fun a member => h.nested a (fewer.subset member)⟩

theorem Begun.moves (h : Begun s cells m) (moves : Moves s m m') :
    Begun s (cells ++ m.begun m') m' := by
  cases moves with
  | skipped next known => exact h.keep (.skipped next known) (by rw [proceed_nested_cells])
  | settled next unseen found =>
    exact h.keep (.settled next unseen found) (proceed_nested_cells (m := m) ▸ .refl _)
  | left nested visited value popped =>
    refine h.keep (.left nested visited value popped) ?_
    rw [nested]
    exact List.sublist_cons_self _ _
  | @entered a as e next unseen found allowed =>
    have entered : Moves s m ((m.proceed as).enter a e) := .entered next unseen found allowed
    have nested : ((m.proceed as).enter a e).nested.map Prod.fst =
        a :: m.nested.map Prod.fst := congrArg (a :: ·) proceed_nested_cells
    have absent : a.coordinate ∉ cells := fun member => unseen.not_touched (h.touched _ member)
    have formula : s.index.IsFormula a.coordinate :=
      CellIndex.isFormula_of_finding (by simp [found])
    rw [begun_enter]
    refine ⟨(step_next h.aligned entered.step).1, ?_, ?_, ?_, ?_⟩
    · exact List.nodup_append_comm.mp (List.nodup_cons.mpr ⟨absent, h.distinct⟩)
    · exact List.forall_mem_append.mpr ⟨h.formulas, List.forall_mem_singleton.mpr formula⟩
    · refine List.forall_mem_append.mpr ⟨fun c member => ?_, List.forall_mem_singleton.mpr ?_⟩
      · exact entered.touched h.aligned (h.touched c member)
      · exact .inr (by rw [enter_keys unseen]; simp)
    · rw [nested]
      refine List.forall_mem_cons.mpr ⟨by simp, fun b member => ?_⟩
      exact List.mem_append_left _ (h.nested b member)

/-- The steps of a resolution and what it may still take are no more than at its start. -/
theorem Trace.begun (trace : m.Trace s n cells m') (aligned : m.Aligned) (outermost : m.nested = []) :
    Begun s cells m' ∧ n + m'.load s ≤ m.load s := by
  induction trace with
  | start =>
    refine ⟨⟨aligned, .nil, nofun, nofun, ?_⟩, by omega⟩
    rw [outermost]
    exact nofun
  | next before step ih =>
    obtain ⟨so_far, bounded⟩ := ih
    have moves := moves_of_step so_far.aligned step
    have less := moves.load_lt so_far.aligned
    exact ⟨so_far.moves moves, by omega⟩

theorem Begun.length_le (h : Begun s cells m) :
    m.nested.length ≤ s.index.countP (·.2.isFormula) := by
  obtain ⟨start, entries⟩ := h.aligned.nested
  have distinct : ((m.nested.map Prod.fst).map Address.coordinate).Nodup := by
    have nodup := h.aligned.mirrored.2
    rw [h.aligned.mirrored.1, entries, List.map_append, List.map_reverse] at nodup
    exact List.nodup_reverse.mp (List.nodup_append.mp nodup).2.1
  have formulas : ∀ c ∈ (m.nested.map Prod.fst).map Address.coordinate, s.index.IsFormula c := by
    intro c member
    obtain ⟨a, nested, rfl⟩ := List.mem_map.mp member
    exact h.formulas _ (h.nested a nested)
  have le := CellIndex.length_le_countP distinct formulas
  rwa [List.length_map, List.length_map] at le

end Machine

namespace Resolver

variable {table : CellTable} {r : Resolver} {text body : String} {e : Expr}

/-- Whatever values a resolver has, the steps of a resolution come to an end, with its outcome. They
    are at most one for each reference of the formula asked for and of every formula cell, and one for
    the end of each cell. No cell is begun twice, so there are never more formulas in progress than
    formula cells and the formula asked for. -/
theorem resolve_ends (indexed : CellIndex.ofTable table = .ok r.index)
    (formula : formulaBody? text = some body) (parsed : Expr.parse body = .ok e) :
    (∃ n cells m last, (Machine.start r.current r.memo e).Trace r.setting n cells m ∧
      m.step r.setting = .done (r.resolve text).outcome last) ∧
    ∀ n cells m, (Machine.start r.current r.memo e).Trace r.setting n cells m →
      n ≤ e.cells.length + r.index.work ∧ cells.Nodup ∧ (∀ c ∈ cells, r.index.IsFormula c) ∧
        m.depth ≤ table.countP (·.2.isFormula) + 1 := by
  have aligned := Machine.start_aligned r.current r.memo e
  constructor
  · obtain ⟨last, reached, done⟩ := Machine.run_reaches (s := r.setting) aligned
    obtain ⟨n, cells, trace⟩ := reached.exists_trace
    rw [resolve_of_formula formula parsed]
    exact ⟨n, cells, last, _, trace, done⟩
  · intro n cells m trace
    obtain ⟨begun, bounded⟩ := trace.begun aligned rfl
    have load : (Machine.start r.current r.memo e).load r.setting =
        e.cells.length + (Machine.start r.current r.memo e).aheadOf r.setting r.setting.index := rfl
    have ahead := Machine.aheadOf_start_le r.setting (Machine.start r.current r.memo e)
    change _ ≤ r.index.work at ahead
    refine ⟨by omega, begun.distinct, begun.formulas, Nat.succ_le_succ ?_⟩
    rw [← CellIndex.countP_isFormula_ofTable indexed]
    exact begun.length_le

theorem resolve_ends_of_loop :
    let table : CellTable := [(.text "A1", .text "=B1+1"), (.text "B1", .text "=A1"),
      (.text "C1", .text "=(")]
    let r : Resolver := ⟨[(⟨0, 0⟩, { formula := some "=B1+1" }), (⟨1, 0⟩, { formula := some "=A1" }),
      (⟨2, 0⟩, { formula := some "=(" })], none, some 1, [(⟨2, 0⟩, .double 5.0)], .empty⟩
    let e : Expr := .ref ⟨⟨0, 0, false, false⟩, "A1"⟩
    CellIndex.ofTable table = .ok r.index ∧ formulaBody? "=A1" = some "A1" ∧
      Expr.parse "A1" = .ok e ∧
      (∃ n cells m last, (Machine.start r.current r.memo e).Trace r.setting n cells m ∧
        m.step r.setting = .done (r.resolve "=A1").outcome last) ∧
      ∀ n cells m, (Machine.start r.current r.memo e).Trace r.setting n cells m →
        n ≤ e.cells.length + r.index.work ∧ cells.Nodup ∧ (∀ c ∈ cells, r.index.IsFormula c) ∧
          m.depth ≤ table.countP (·.2.isFormula) + 1 := by
  intro table r e
  have indexed : CellIndex.ofTable table = .ok r.index := rfl
  have parsed : Expr.parse "A1" = .ok e := Expr.parse_address rfl
  exact ⟨indexed, rfl, parsed, resolve_ends indexed rfl parsed⟩

end Resolver

end Spreadsheet
