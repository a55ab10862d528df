import Spreadsheet.Proofs.Formula.Layout
import Spreadsheet.Proofs.Resolution.History
import Spreadsheet.Proofs.Resolution.Outcome

namespace Spreadsheet

namespace Machine

variable {s : Setting} {m m' : Machine} {current : Option Address} {a : Address} {t root : Task}
  {nested outer : List (Address × Task)} {memo : Memo} {index : CellIndex}

def tasks (m : Machine) : List Task := m.root :: (m.nested.map Prod.snd).reverse

def callees (m : Machine) : List Address := (m.nested.map Prod.fst).reverse

/-- What holds of the stack, its set of cells and the values whenever a step begins. -/
structure Invariant (current : Option Address) (m : Machine) : Prop where
  entries : m.stack.entries = current.toList ++ m.callees
  distinct : (m.stack.entries.map Address.coordinate).Nodup
  keys : ∀ c, c ∈ m.stack.keys ↔ c ∈ m.stack.entries.map Address.coordinate
  fresh : ∀ a ∈ m.stack.entries, ¬ m.memo.Has a.coordinate
  passed : ∀ (i : Nat) (t : Task), m.tasks[i]? = some t →
    ∃ passed : List Address, t.body.cells = passed ++ t.pending ∧
      ∀ a ∈ passed, m.memo.Has a.coordinate ∨
        ∃ b : Address, m.callees[i]? = some b ∧ a.coordinate = b.coordinate

/-- Each formula in progress has passed references that have values, and the cell of the formula
    after it. The induction goes inwards, so the innermost formula may be at a cell `next`. -/
theorem Nested.passed_at (h : Nested index memo root nested) {next : Option Address}
    (top : (innermost root nested).Passed memo next.toList) (i : Nat)
    (task : (root :: (nested.map Prod.snd).reverse)[i]? = some t) :
    t.Passed memo ((nested.map Prod.fst).reverse ++ next.toList)[i]?.toList := by
  induction h generalizing next i t with
  | nil =>
    cases i with
    | zero =>
      cases task
      cases next <;> exact top
    | succ i => cases task
  | @cons a inner outer rest formula called ih =>
    rw [List.map_cons, List.reverse_cons] at task ⊢
    rw [← List.cons_append] at task
    by_cases before : i < outer.length + 1
    · have place : i < (root :: (outer.map Prod.snd).reverse).length := by simpa using before
      have callee : i < ((outer.map Prod.fst).reverse ++ [a]).length := by simpa using before
      rw [List.getElem?_append_left place] at task
      rw [List.getElem?_append_left callee]
      have caller : (innermost root outer).Passed memo (some a).toList := called
      exact ih caller i task
    · have place : (root :: (outer.map Prod.snd).reverse).length ≤ i := by
        simpa using Nat.le_of_not_lt before
      have callee : ((outer.map Prod.fst).reverse ++ [a]).length ≤ i := by
        simpa using Nat.le_of_not_lt before
      have last : i = outer.length + 1 := by
        have inside := (List.getElem?_eq_some_iff.mp task).1
        simp only [List.length_append, List.length_cons, List.length_reverse, List.length_map,
          List.length_nil] at inside
        omega
      have front : i - (root :: (outer.map Prod.snd).reverse).length = 0 := by simp [last]
      have front' : i - ((outer.map Prod.fst).reverse ++ [a]).length = 0 := by simp [last]
      rw [List.getElem?_append_right place, front] at task
      rw [List.getElem?_append_right callee, front']
      cases task
      cases next <;> exact top

theorem Consistent.invariant (h : m.Consistent index current) : m.Invariant current := by
  refine ⟨h.entries, ?_, ?_, h.fresh, ?_⟩
  · rw [h.entries]
    exact h.distinct
  · intro c
    rw [h.mirrored.1]
  · intro i t task
    have innermost : (innermost m.root m.nested).Passed m.memo (none : Option Address).toList :=
      h.passed
    obtain ⟨passed, cells, known⟩ := h.nested.passed_at innermost i task
    refine ⟨_, cells, fun a member => ?_⟩
    rcases List.mem_append.mp member with before | here
    · exact .inl (known a before)
    · refine .inr ⟨a, ?_, rfl⟩
      rw [Option.toList_none, List.append_nil] at here
      exact Option.mem_toList.mp here

theorem Consistent.pop (h : m.Consistent index current) (within : m.nested ≠ []) :
    ∃ stack, m.stack.pop = .ok stack := by
  obtain ⟨⟨b, t⟩, outer, nested⟩ := List.exists_cons_of_ne_nil within
  have entries := h.entries
  rw [nested, pathTo_cons] at entries
  obtain ⟨stack, popped, -⟩ := CallStack.pop_append entries
  exact ⟨stack, popped⟩

theorem Reaches.run_eq (reached : m.Reaches s m') (aligned : m.Aligned) :
    ∃ aligned' : m'.Aligned, m.run s aligned = m'.run s aligned' := by
  induction reached with
  | refl => exact ⟨aligned, rfl⟩
  | tail _ step ih =>
    obtain ⟨between, same⟩ := ih
    exact ⟨(step_next between step).1, same.trans (run_next between step)⟩

end Machine

theorem CellIndex.writtenIn_formulas (index : CellIndex) :
    index.WrittenIn (index.filterMap (·.2.formula)) := by
  intro entry member body written
  obtain ⟨formula, holds, starts⟩ := Option.bind_eq_some_iff.mp written
  exact ⟨formula, List.mem_filterMap.mpr ⟨entry, member, holds⟩, starts⟩

theorem CellIndex.WrittenIn.mono {index : CellIndex} {texts more : List String}
    (h : index.WrittenIn texts) (subset : texts ⊆ more) : index.WrittenIn more := by
  intro entry member body written
  obtain ⟨t, among, starts⟩ := h entry member body written
  exact ⟨t, subset among, starts⟩

namespace Failure

/-- A failure of the steps of a resolution themselves: the stack is empty, the cell that closes a
    cycle is not on it, or a reference has no value. -/
def IsInternal (f : Failure) : Prop :=
  match f.kind with
  | .missingEntry | .missingItem | .missingName => True
  | _ => False

theorem OfTexts.not_isInternal {f : Failure} {texts : List String} (h : f.OfTexts texts) :
    ¬ f.IsInternal := by
  rcases h with code | ⟨t, -, ⟨digits, -, -, -, rfl⟩ | ⟨rfl, -⟩⟩
  · unfold HasCode Kind.code? at code
    unfold IsInternal
    cases kind : f.kind <;> simp_all
  · exact id
  · exact id

theorem OfResolution.not_isInternal {f : Failure} {texts : List String} {maxDepth : Option Int}
    (h : f.OfResolution texts maxDepth) : ¬ f.IsInternal := by
  rcases h with textual | ⟨rfl, -⟩
  · exact textual.not_isInternal
  · exact id

end Failure

namespace Resolver

variable {table : CellTable} {name : Option CellName} {r used : Resolver} {depth : Option Int}
  {text body : String} {e : Expr} {m : Machine}

theorem resolve_not_internal {f : Failure} (sound : used.index.Sound used.current used.memo)
    (failed : (used.resolve text).outcome = .error f) : ¬ f.IsInternal := by
  have written : used.index.WrittenIn (text :: used.index.filterMap (·.2.formula)) :=
    used.index.writtenIn_formulas.mono (List.subset_cons_self _ _)
  exact (resolve_fails sound written List.mem_cons_self f failed).not_isInternal

/-- Whenever a step of a resolution begins, whatever the resolver was asked before: the stack holds
    the current address and the cells of the formulas in progress, each cell once and none with a
    value, the set holds the same cells, and what each formula has passed has a value or is in
    progress. So there is something to pop, every lookup finds a value, and no text fails for want of
    either. -/
theorem invariant_of_reaches (fresh : ofTable table name depth = .ok r) (requests : List Request)
    (formula : formulaBody? text = some body) (parsed : Expr.parse body = .ok e)
    (reached : (Machine.start (requests.foldl serve r).current (requests.foldl serve r).memo
      e).Reaches (requests.foldl serve r).setting m) :
    m.Invariant r.current ∧
      (m.nested ≠ [] → ∃ stack, m.stack.pop = .ok stack) ∧
      (m.top.pending = [] → ∀ q ∈ m.top.body.references, ∃ x, m.memo.value q.address = .ok x) ∧
      (∃ aligned : m.Aligned, ((requests.foldl serve r).resolve text).outcome =
        (m.run (requests.foldl serve r).setting aligned).1) ∧
      ∀ f, ((requests.foldl serve r).resolve text).outcome = .error f → ¬ f.IsInternal := by
  have start : r.Continues r := ⟨rfl, rfl, sound_of_ofTable fresh⟩
  have continues := start.serveAll requests
  generalize requests.foldl serve r = used at continues reached ⊢
  have first : (Machine.start used.current used.memo e).Consistent used.setting.index
      used.current := .start continues.sound e
  have consistent := reached.consistent first
  rw [← continues.current]
  have values : m.top.pending = [] → ∀ q ∈ m.top.body.references,
      ∃ x, m.memo.value q.address = .ok x := by
    intro visited q member
    obtain ⟨x, value⟩ := consistent.passed.value consistent.sound visited member
    exact ⟨_, value⟩
  refine ⟨consistent.invariant, consistent.pop, values, ?_,
    fun f => resolve_not_internal continues.sound⟩
  obtain ⟨aligned, same⟩ := reached.run_eq first.aligned
  refine ⟨aligned, ?_⟩
  rw [resolve_of_formula formula parsed, ← same]
  rfl

theorem invariant_of_reaches_loop :
    let requests : List Request := [.resolve "=A1", .limit (some 5)]
    let e : Expr := .ref ⟨⟨0, 0, false, false⟩, "A1"⟩
    ∃ (r : Resolver) (m : Machine),
      ofTable [(.text "A1", .text "=A1")] (some (.text "B1")) none = .ok r ∧
      (Machine.start (requests.foldl serve r).current (requests.foldl serve r).memo e).Reaches
        (requests.foldl serve r).setting m ∧
      m.nested = [(⟨0, 0, false, false⟩, .ofExpr e)] ∧
      m.Invariant r.current ∧
      (m.nested ≠ [] → ∃ stack, m.stack.pop = .ok stack) ∧
      (m.top.pending = [] → ∀ q ∈ m.top.body.references, ∃ x, m.memo.value q.address = .ok x) ∧
      (∃ aligned : m.Aligned, ((requests.foldl serve r).resolve "=A1").outcome =
        (m.run (requests.foldl serve r).setting aligned).1) ∧
      ∀ f, ((requests.foldl serve r).resolve "=A1").outcome = .error f → ¬ f.IsInternal := by
  intro requests e
  let r := ofIndex [(⟨0, 0⟩, { formula := some "=A1" })] (some ⟨1, 0, false, false⟩) none
  let used := requests.foldl serve r
  have fresh : ofTable [(.text "A1", .text "=A1")] (some (.text "B1")) none = .ok r := rfl
  have formula : formulaBody? "=A1" = some "A1" := rfl
  have parsed : Expr.parse "A1" = .ok e := Expr.parse_address rfl
  have continues : r.Continues used :=
    Continues.serveAll ⟨rfl, rfl, sound_of_ofTable fresh⟩ requests
  have found : used.index.finding ⟨0, 0⟩ = .formula e := by
    rw [continues.index]
    exact CellIndex.finding_of_formula rfl formula parsed
  -- The first request failed, since the cell is on a cycle. So it has no value, and is entered.
  have edge : used.index.References ⟨0, 0⟩ ⟨0, 0⟩ :=
    (CellIndex.references_iff found).mpr List.mem_cons_self
  have unknown : ¬ used.memo.Has ⟨0, 0⟩ := fun has =>
    continues.sound.acyclic has (.single edge)
  let m := Machine.start used.current used.memo e
  have absent : m.stack.contains ⟨0, 0, false, false⟩ = false := by
    change (CallStack.ofCurrent used.current).contains _ = false
    rw [continues.current]
    rfl
  have allowed : used.setting.exceeded? m.depth = none := rfl
  have moves : Machine.Moves used.setting m _ := .entered rfl ⟨unknown, absent⟩ found allowed
  have reached : m.Reaches used.setting _ := .single moves.step
  exact ⟨r, _, fresh, reached, rfl,
    invariant_of_reaches fresh requests formula parsed reached⟩

end Resolver

end Spreadsheet
