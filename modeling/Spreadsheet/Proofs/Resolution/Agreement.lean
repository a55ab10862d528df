import Spreadsheet.Proofs.Resolution.Reachability
import Spreadsheet.Proofs.Resolution.Refinement

namespace Spreadsheet

/-- The second setting finds the same in all cells that an expression leads to, and allows every
    number of formulas in progress that the first one allows. -/
structure Setting.Admits (e : Expr) (s s' : Setting) : Prop where
  finding : ∀ c, s.index.Reachable e c → s'.index.finding c = s.index.finding c
  allowed : ∀ n, s.exceeded? n = none → s'.exceeded? n = none

theorem Setting.exceeded?_congr {s s' : Setting} (same : s'.maxDepth = s.maxDepth) (n : Nat) :
    s'.exceeded? n = s.exceeded? n := by
  unfold exceeded?
  rw [same]

theorem Setting.exceeded?_eq_none {s : Setting} {n : Nat} :
    s.exceeded? n = none ↔ ∀ limit ∈ s.maxDepth, n ≤ limit := by
  unfold exceeded?
  cases s.maxDepth with
  | none => simp
  | some limit => simp

namespace Machine

variable {s s' : Setting} {m m' : Machine} {current : Option Address} {e : Expr}
  {outcome : Except Failure Number}

theorem Moves.admitted (moves : Moves s m m') (h : m.Consistent s.index current)
    (admits : s.Admits m.root.body s') : Moves s' m m' := by
  cases moves with
  | skipped next known => exact .skipped next known
  | settled next unseen found =>
    exact .settled next unseen ((admits.finding _ (h.reachable next)).trans found)
  | entered next unseen found allowed =>
    exact .entered next unseen ((admits.finding _ (h.reachable next)).trans found)
      (admits.allowed _ allowed)
  | left nested visited value popped => exact .left nested visited value popped

theorem Ends.admitted (ends : Ends s m outcome) (h : m.Consistent s.index current)
    (admits : s.Admits m.root.body s')
    (deep : s.Exceeded outcome → s'.maxDepth = s.maxDepth) :
    Ends s' m outcome := by
  cases ends with
  | finished bottom visited => exact .finished bottom visited
  | failed visited value => exact .failed visited value
  | circular next unknown member => exact .circular next unknown member
  | unreadable next unseen found allowed =>
    exact .unreadable next unseen ((admits.finding _ (h.reachable next)).trans found)
      (admits.allowed _ allowed)
  | tooDeep next unseen formula exceeded =>
    refine .tooDeep next unseen ?_ ?_
    · rw [admits.finding _ (h.reachable next)]
      exact formula
    · have limited := (Setting.maxDepth_of_exceeded? exceeded).1
      rw [Setting.exceeded?_congr (deep ⟨_, _, limited, rfl⟩)]
      exact exceeded

/-- Both resolutions take the same steps, unless the first one exceeds a limit that the second one
    does not have. -/
theorem run_admitted (h : m.Consistent s.index current) (admits : s.Admits m.root.body s')
    (aligned : m.Aligned)
    (deep : s.Exceeded (m.run s aligned).1 → s'.maxDepth = s.maxDepth) :
    (m.run s' aligned).1 = (m.run s aligned).1 := by
  induction m, aligned using Machine.run.induct (s := s) with
  | case1 m aligned outcome last done =>
    rw [run_done aligned done] at deep ⊢
    have ends := (ends_of_step aligned done).1.admitted h admits deep
    obtain ⟨last', done', -⟩ := ends.step h.mirrored
    rw [run_done aligned done']
  | case2 m aligned m' step ih =>
    have moves := moves_of_step aligned step
    rw [run_next aligned step] at deep ⊢
    rw [run_next aligned (moves.admitted h admits).step]
    exact ih (h.moves moves) (moves.root_body ▸ admits) deep

end Machine

namespace Resolver

variable {index index' : CellIndex} {current : Option Address} {depth depth' : Option Int}
  {text : String}

theorem resolve_admitted
    (finding : ∀ c, index.LeadsTo text c → index'.finding c = index.finding c)
    (allowed : ∀ n, (Setting.mk index depth).exceeded? n = none →
      (Setting.mk index' depth').exceeded? n = none)
    (deep : (Setting.mk index depth).Exceeded ((ofIndex index current depth).resolve text).outcome →
      depth' = depth) :
    ((ofIndex index' current depth').resolve text).outcome =
      ((ofIndex index current depth).resolve text).outcome := by
  cases formula : formulaBody? text with
  | none => rw [resolve_of_literal formula, resolve_of_literal formula]
  | some body =>
    cases parsed : Expr.parse body with
    | error f => rw [resolve_of_unreadable formula parsed, resolve_of_unreadable formula parsed]
    | ok e =>
      rw [resolve_of_formula formula parsed] at deep ⊢
      rw [resolve_of_formula formula parsed]
      have start : (Machine.start current [] e).Consistent index current := .start .nil e
      have admits : (Setting.mk index depth).Admits e ⟨index', depth'⟩ :=
        ⟨fun c reached => finding c ⟨body, e, formula, parsed, reached⟩, allowed⟩
      exact Machine.run_admitted (s := ⟨index, depth⟩) start admits start.aligned deep

end Resolver

end Spreadsheet
