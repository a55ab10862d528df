import Spreadsheet.Proofs.Resolution.Refinement

namespace Spreadsheet

variable {e e' : Expr} {text text' body body' : String}

theorem Expr.cells_unspelled (e : Expr) : e.unspelled.cells = e.cells := by
  rw [cells, unspelled, references_mapReferences, List.map_map]
  rfl

theorem Expr.outcome_eval_unspelled (e : Expr) (value : Address → Except Failure Number) :
    (e.unspelled.eval value).outcome = (e.eval value).outcome :=
  outcome_eval_mapReferences e fun _ _ => rfl

theorem Task.value_congr (same : e.unspelled = e'.unspelled) (pending pending' : List Address)
    (memo : Memo) : (Task.mk e pending).value memo = (Task.mk e' pending').value memo := by
  simp only [Task.value]
  rw [← e.outcome_eval_unspelled, same, e'.outcome_eval_unspelled]

namespace Machine

variable {s : Setting} {m : Machine} {a : Address}

/-- The same machine, asked for another expression of the same cells. -/
def respelled (e : Expr) (m : Machine) : Machine := { m with root := { m.root with body := e } }

def Step.respelled (e : Expr) : Step → Step
  | .next m => .next (m.respelled e)
  | .done outcome m => .done outcome (m.respelled e)

theorem visitNew_respelled :
    visitNew s a (m.respelled e) = (visitNew s a m).respelled e := by
  have depth : (m.respelled e).depth = m.depth := rfl
  rw [visitNew_eq, visitNew_eq, depth]
  cases s.index.finding a.coordinate with
  | value x notes => rfl
  | formula e => cases s.exceeded? m.depth <;> rfl
  | failure f => cases s.exceeded? m.depth <;> rfl

theorem visit_respelled : visit s a (m.respelled e) = (visit s a m).respelled e := by
  have memo : (m.respelled e).memo = m.memo := rfl
  have stack : (m.respelled e).stack = m.stack := rfl
  unfold visit
  rw [memo, stack, visitNew_respelled]
  split
  · rfl
  · split
    · cases m.stack.cyclePath a <;> rfl
    · rfl

theorem leave_respelled {t : Task} {outer : List (Address × Task)} :
    leave a t outer (m.respelled e) = (leave a t outer m).respelled e := by
  have memo : (m.respelled e).memo = m.memo := rfl
  have stack : (m.respelled e).stack = m.stack := rfl
  unfold leave
  rw [memo, stack]
  cases t.value m.memo with
  | error f => rfl
  | ok x => cases m.stack.pop <;> rfl

theorem step_respelled (same : m.root.body.unspelled = e.unspelled) :
    (m.respelled e).step s = (m.step s).respelled e := by
  obtain ⟨⟨body, pending⟩, nested, stack, memo, notes⟩ := m
  cases nested with
  | nil =>
    cases pending with
    | nil => exact congrArg (Step.done · _) (Task.value_congr same.symm [] [] memo)
    | cons a pending => exact visit_respelled (m := ⟨⟨body, pending⟩, [], stack, memo, notes⟩)
  | cons task outer =>
    obtain ⟨b, ⟨inner, rest⟩⟩ := task
    cases rest with
    | nil =>
      exact leave_respelled (m := ⟨⟨body, pending⟩, (b, ⟨inner, []⟩) :: outer, stack, memo, notes⟩)
    | cons a rest =>
      exact visit_respelled
        (m := ⟨⟨body, pending⟩, (b, ⟨inner, rest⟩) :: outer, stack, memo, notes⟩)

theorem run_respelled (aligned : m.Aligned) (aligned' : (m.respelled e).Aligned)
    (same : m.root.body.unspelled = e.unspelled) :
    (m.respelled e).run s aligned' = ((m.run s aligned).1, (m.run s aligned).2.respelled e) := by
  induction m, aligned using Machine.run.induct (s := s) with
  | case1 m aligned outcome last done =>
    have done' := step_respelled (s := s) same
    rw [done] at done'
    rw [run_done aligned done, run_done aligned' done']
  | case2 m aligned m' step ih =>
    have step' := step_respelled (s := s) same
    rw [step] at step'
    have body := (moves_of_step aligned step).root_body
    rw [run_next aligned step, run_next aligned' step', ih _ (body ▸ same)]

theorem start_respelled (current : Option Address) (memo : Memo)
    (same : e.unspelled = e'.unspelled) :
    start current memo e' = (start current memo e).respelled e' := by
  have cells : e'.cells = e.cells := by
    rw [← e.cells_unspelled, same, e'.cells_unspelled]
  simp only [start, respelled, Task.ofExpr, cells]

end Machine

namespace Resolver

theorem resolveExpr_congr (r : Resolver) (same : e.unspelled = e'.unspelled) :
    r.resolveExpr e = r.resolveExpr e' := by
  have run := Machine.run_respelled (s := r.setting) (Machine.start_aligned r.current r.memo e)
    (Machine.start_respelled r.current r.memo same ▸ Machine.start_aligned r.current r.memo e') same
  simp only [resolveExpr, Machine.start_respelled r.current r.memo same, run]
  rfl

/-- Two formulas whose expressions differ only in how references are spelled are resolved alike. -/
theorem resolve_congr (r : Resolver) (formula : formulaBody? text = some body)
    (formula' : formulaBody? text' = some body') (parsed : Expr.parse body = .ok e)
    (parsed' : Expr.parse body' = .ok e') (same : e.unspelled = e'.unspelled) :
    r.resolve text = r.resolve text' := by
  rw [resolve_of_formula formula parsed, resolve_of_formula formula' parsed']
  exact r.resolveExpr_congr same

end Resolver

end Spreadsheet
