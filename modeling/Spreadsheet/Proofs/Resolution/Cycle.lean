import Mathlib.Data.List.Chain
import Spreadsheet.Proofs.Formula.Completeness
import Spreadsheet.Proofs.Resolution.Refinement

namespace Spreadsheet

/-- The references between the cells of a table, and those of a formula that stands at a current
    address in place of the cell there. -/
structure Graph where
  index : CellIndex
  current : Option Address
  root : List Coordinate

namespace Graph

variable {g : Graph} {c d : Coordinate}

def Edge (g : Graph) (c d : Coordinate) : Prop :=
  (StandsAt g.current c ∧ d ∈ g.root) ∨ (¬ StandsAt g.current c ∧ g.index.References c d)

/-- The cells that the formula references, and those that are referenced from these in turn. -/
inductive Reached (g : Graph) : Coordinate → Prop where
  | root {c : Coordinate} (member : c ∈ g.root) : Reached g c
  | edge {c d : Coordinate} (reached : Reached g c) (edge : g.Edge c d) : Reached g d

/-- A closed walk that meets every cell once before it closes. -/
structure Loop (g : Graph) (cycle : List Coordinate) : Prop where
  long : 2 ≤ cycle.length
  closed : cycle.head? = cycle.getLast?
  simple : cycle.dropLast.Nodup
  linked : cycle.IsChain g.Edge

theorem not_reached (empty : g.root = []) : ¬ g.Reached c := by
  intro reached
  induction reached with
  | root member =>
    rw [empty] at member
    cases member
  | edge _ _ ih => exact ih

variable {memo : Memo}

theorem Reached.has (h : g.Reached c) (sound : g.index.Sound g.current memo)
    (known : ∀ d ∈ g.root, memo.Has d) : memo.Has c := by
  induction h with
  | root member => exact known _ member
  | edge _ edge ih =>
    rcases edge with ⟨stands, _⟩ | ⟨_, edge⟩
    · exact absurd stands (sound.away ih)
    · exact sound.closed ih edge

theorem references_of_edges (sound : g.index.Sound g.current memo) (has : memo.Has c)
    (walk : Relation.TransGen g.Edge c d) : Relation.TransGen g.index.References c d := by
  have edge_of : ∀ {b d : Coordinate}, memo.Has b → g.Edge b d → g.index.References b d := by
    intro b d has edge
    rcases edge with ⟨stands, _⟩ | ⟨_, edge⟩
    · exact absurd stands (sound.away has)
    · exact edge
  induction walk with
  | single edge => exact .single (edge_of has edge)
  | tail _ edge ih => exact .tail ih (edge_of (sound.closed_trans has ih) edge)

end Graph

theorem CellIndex.closedPath_split {path : List Address} {a : Address}
    (member : a.coordinate ∈ path.map Address.coordinate) :
    ∃ before after, path.map Address.coordinate = before ++ a.coordinate :: after ∧
      closedPath path a = a.coordinate :: after ++ [a.coordinate] := by
  unfold closedPath
  induction path with
  | nil => cases member
  | cons b path ih =>
    by_cases here : b.coordinate = a.coordinate
    · exact ⟨[], path.map Address.coordinate, by simp [here], by simp [here]⟩
    · have later : a.coordinate ∈ path.map Address.coordinate := by
        rcases List.mem_cons.mp member with same | later
        · exact absurd same.symm here
        · exact later
      obtain ⟨before, after, split, closed⟩ := ih later
      refine ⟨b.coordinate :: before, after, by simp [split], ?_⟩
      rw [List.dropWhile_cons_of_pos (by simpa using here)]
      exact closed

namespace Machine

variable {s : Setting} {index : CellIndex} {current : Option Address} {memo : Memo} {m : Machine}
  {root : Task} {nested : List (Address × Task)} {d : Coordinate} {cycle : List Coordinate}

theorem Descent.linked (h : Descent index current memo root nested)
    (member : d ∈ (innermost root nested).body.coordinates) :
    Graph.Reached ⟨index, current, root.body.coordinates⟩ d ∧
      ((pathTo current nested).map Address.coordinate ++ [d]).IsChain
        (Graph.Edge ⟨index, current, root.body.coordinates⟩) := by
  induction nested generalizing d with
  | nil =>
    refine ⟨.root member, ?_⟩
    cases current with
    | none => exact .singleton d
    | some a => exact List.isChain_pair.mpr (.inl ⟨rfl, member⟩)
  | cons task outer ih =>
    obtain ⟨a, t⟩ := task
    cases h.formulas with
    | cons rest formula called =>
      obtain ⟨reached, chain⟩ := ih h.outer called.referenced
      have away : ¬ StandsAt current a.coordinate := fun stands => h.not_mem (mem_pathTo stands)
      have edge : Graph.Edge ⟨index, current, root.body.coordinates⟩ a.coordinate d :=
        .inr ⟨away, (CellIndex.references_iff formula).mpr member⟩
      refine ⟨.edge reached edge, ?_⟩
      rw [pathTo_cons, List.map_append, List.append_assoc]
      exact List.isChain_append_cons_cons.mpr ⟨chain, edge, .singleton d⟩

theorem value_failsLocally (t : Task) (memo : Memo) : FailsLocally (t.value memo) :=
  Expr.eval_failsLocally memo.value_failsLocally t.body

theorem Ends.of_circular (h : Ends s m (.error (.circular cycle))) :
    ∃ a as, m.top.pending = a :: as ∧
      a.coordinate ∈ m.stack.entries.map Address.coordinate ∧
      cycle = CellIndex.closedPath m.stack.entries a := by
  generalize same : (Except.error (.circular cycle) : Except Failure Number) = outcome at h
  cases h with
  | finished _ _ => exact absurd same.symm ((value_failsLocally _ _).ne_circular cycle)
  | failed _ value =>
    cases same
    exact absurd value ((value_failsLocally _ _).ne_circular cycle)
  | circular next _ member =>
    cases same
    exact ⟨_, _, next, member, rfl⟩
  | unreadable _ _ found _ =>
    cases same
    exact absurd (CellIndex.finding_failure_isLocal found) (Failure.not_isLocal_circular cycle)
  | tooDeep => cases Failure.eq_of_naming (Except.error.inj same).symm nofun

namespace Consistent

theorem loop (h : m.Consistent s.index current) (ends : Ends s m (.error (.circular cycle))) :
    Graph.Loop ⟨s.index, current, m.root.body.coordinates⟩ cycle ∧
      ∀ k ∈ cycle, Graph.Reached ⟨s.index, current, m.root.body.coordinates⟩ k := by
  obtain ⟨a, as, next, member, rfl⟩ := ends.of_circular
  rw [h.entries] at member ⊢
  obtain ⟨reached, chain⟩ := h.descent.linked (h.passed.visit next).referenced
  obtain ⟨before, after, split, closed⟩ := CellIndex.closedPath_split member
  have distinct := h.distinct
  rw [split] at chain distinct
  rw [closed]
  rw [List.append_assoc] at chain
  have linked := chain.right_of_append
  refine ⟨⟨by simp, ?_, ?_, linked⟩, ?_⟩
  · rw [List.getLast?_concat]
    rfl
  · rw [List.dropLast_concat]
    exact (List.nodup_append.mp distinct).2.1
  · exact linked.induction _ _ (fun _ _ edge reached => .edge reached edge) fun _ => reached

theorem loopless (h : m.Consistent s.index current) {x : Number} (ends : Ends s m (.ok x))
    (reached : Graph.Reached ⟨s.index, current, m.root.body.coordinates⟩ d) :
    ¬ Relation.TransGen (Graph.Edge ⟨s.index, current, m.root.body.coordinates⟩) d d ∧
      ¬ StandsAt current d := by
  obtain ⟨bottom, visited⟩ := ends.of_ok
  have top := top_of_nil bottom
  have known := h.passed.known (top ▸ visited)
  rw [top] at known
  have has := reached.has h.sound known
  exact ⟨fun loop => h.sound.acyclic has (Graph.references_of_edges h.sound has loop),
    h.sound.away has⟩

end Consistent

end Machine

def referencedCells (text : String) : List Coordinate :=
  match extractReferences text with
  | .error _ => []
  | .ok as => as.map Address.coordinate

namespace Resolver

variable {table : CellTable} {name : Option CellName} {r : Resolver} {depth : Option Int}

def graph (r : Resolver) (text : String) : Graph := ⟨r.index, r.current, referencedCells text⟩

theorem graph_eq {text body : String} {e : Expr} (formula : formulaBody? text = some body)
    (parsed : Expr.parse body = .ok e) : r.graph text = ⟨r.index, r.current, e.coordinates⟩ := by
  unfold graph referencedCells extractReferences
  rw [formula]
  simp only [parsed]
  rfl

/-- A cycle that is reported is a cycle of the references, and a formula with a value leads to
    none, and not back to where it stands. -/
theorem resolve_loop (fresh : ofTable table name depth = .ok r) (text : String) :
    (∀ cycle, (r.resolve text).outcome = .error (.circular cycle) →
      (r.graph text).Loop cycle ∧ ∀ k ∈ cycle, (r.graph text).Reached k) ∧
    ∀ x, (r.resolve text).outcome = .ok x → ∀ c, (r.graph text).Reached c →
      ¬ Relation.TransGen (r.graph text).Edge c c ∧ ¬ StandsAt r.current c := by
  cases formula : formulaBody? text with
  | none =>
    rw [resolve_of_literal formula]
    have empty : (r.graph text).root = [] := by
      unfold graph referencedCells extractReferences
      rw [formula]
      rfl
    exact ⟨nofun, fun _ _ _ reached => absurd reached (Graph.not_reached empty)⟩
  | some body =>
    cases parsed : Expr.parse body with
    | error f =>
      rw [resolve_of_unreadable formula parsed]
      refine ⟨?_, nofun⟩
      intro cycle same
      cases same
      exact absurd parsed ((Expr.parse_failsLocally body).ne_circular cycle)
    | ok e =>
      obtain ⟨last, consistent, same, ends, -⟩ := resolveExpr_spec (sound_of_ofTable fresh) e
      rw [resolve_of_formula formula parsed, graph_eq formula parsed, ← same]
      rw [← same] at ends
      constructor
      · intro cycle circular
        rw [circular] at ends
        exact consistent.loop ends
      · intro x value c reached
        rw [value] at ends
        exact consistent.loopless ends reached

theorem resolve_loop_of_self :
    ∃ r, ofTable [(.text "B1", .text "=B1")] none none = .ok r ∧
      (r.resolve "=B1").outcome = .error (.circular [⟨1, 0⟩, ⟨1, 0⟩]) ∧
      (r.graph "=B1").Loop [⟨1, 0⟩, ⟨1, 0⟩] := by
  have word : (Token.scan 0 ['B', '1']).outcome = .ok (.identifier "B1") := by rfl
  have rest : (Token.scan 0 ['B', '1']).rest = [] := by rfl
  have tokens : (Token.lex 0 ['B', '1']).outcome = .ok [⟨.identifier "B1", 0⟩] := by
    rw [Token.lex, if_neg (by decide)]
    split
    · rename_i scanned
      rw [word] at scanned
      cases scanned
    · rename_i scanned
      rw [word] at scanned
      cases scanned
      rw [rest, Token.lex]
      rfl
  have derived : Derives .formula [⟨.identifier "B1", 0⟩] (.ref ⟨⟨1, 0, false, false⟩, "B1"⟩) :=
    .formula (.operand (.operand (.operand (.operand (.unsigned (.whole (.word
      (.reference rfl rfl))))))))
  have parsed : Expr.parse "B1" = .ok (.ref ⟨⟨1, 0, false, false⟩, "B1"⟩) :=
    Expr.parse_of_derives tokens derived
  let r := ofIndex [(⟨1, 0⟩, { formula := some "=B1" })] none none
  have fresh : ofTable [(.text "B1", .text "=B1")] none none = .ok r := rfl
  let m := Machine.start none [] (.ref ⟨⟨1, 0, false, false⟩, "B1"⟩)
  have found : r.setting.index.finding (Address.coordinate ⟨1, 0, false, false⟩) =
      .formula (.ref ⟨⟨1, 0, false, false⟩, "B1"⟩) :=
    CellIndex.expr?_eq_some_iff.mp (congrArg Except.toOption parsed)
  have entered : m.step r.setting =
      .next ((m.proceed []).enter ⟨1, 0, false, false⟩ (.ref ⟨⟨1, 0, false, false⟩, "B1"⟩)) := by
    have next : m.top.pending = [⟨1, 0, false, false⟩] := rfl
    have unseen : (m.proceed []).Unseen ⟨1, 0, false, false⟩ := ⟨Memo.not_has_iff.mpr rfl, rfl⟩
    exact (Machine.step_visit next).trans (Machine.visit_formula unseen found)
  have circular : (r.resolve "=B1").outcome = .error (.circular [⟨1, 0⟩, ⟨1, 0⟩]) := by
    rw [resolve_of_formula rfl parsed]
    have ended := (Machine.run_next (Machine.start_aligned ..) entered).trans
      (Machine.run_done _ rfl)
    exact congrArg Prod.fst ended
  exact ⟨r, fresh, circular, ((resolve_loop fresh _).1 _ circular).1⟩

end Resolver

end Spreadsheet
