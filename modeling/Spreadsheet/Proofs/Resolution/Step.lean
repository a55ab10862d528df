import Mathlib.Data.List.TakeWhile
import Spreadsheet.Proofs.Resolution.Memo
import Spreadsheet.Resolution.Run

namespace Spreadsheet

theorem CallStack.Mirrored.contains_iff {s : CallStack} {a : Address} (h : s.Mirrored) :
    s.contains a = true ↔ a.coordinate ∈ s.entries.map Address.coordinate := by
  unfold CallStack.contains
  rw [h.1, List.contains_iff_mem]

theorem CallStack.cyclePath_of_mem {s : CallStack} {a : Address}
    (h : a.coordinate ∈ s.entries.map Address.coordinate) :
    s.cyclePath a = .ok (CellIndex.closedPath s.entries a) := by
  obtain ⟨b, member, same⟩ := List.mem_map.mp h
  unfold CallStack.cyclePath CellIndex.closedPath
  split
  · rename_i empty
    have all := List.dropWhile_eq_nil_iff.mp empty b member
    simp [same] at all
  · rfl

namespace Setting

/-- The failure at a cell whose formula would exceed the limit: it says so, or it is the failure to
    write a limit with too many digits. -/
def Exceeded (s : Setting) (outcome : Except Failure Number) : Prop :=
  ∃ limit cell, s.maxDepth = some limit ∧ outcome = .error (.naming limit (.tooDeep limit cell))

theorem maxDepth_of_exceeded? {s : Setting} {depth : Nat} {limit : Int}
    (exceeded : s.exceeded? depth = some limit) : s.maxDepth = some limit ∧ limit < depth := by
  unfold exceeded? at exceeded
  split at exceeded
  · cases exceeded
  · rename_i bound limited
    split at exceeded
    · rename_i less
      cases exceeded
      exact ⟨limited, less⟩
    · cases exceeded

theorem exceeded_iff {s : Setting} {outcome : Except Failure Number} {limit : Int}
    (limited : s.maxDepth = some limit) (writable : IsWritable limit) :
    s.Exceeded outcome ↔ ∃ cell, outcome = .error (.tooDeep limit cell) := by
  constructor
  · rintro ⟨bound, cell, same, exceeded⟩
    cases limited.symm.trans same
    rw [Failure.naming_of_isWritable writable] at exceeded
    exact ⟨cell, exceeded⟩
  · rintro ⟨cell, deep⟩
    refine ⟨limit, cell, limited, ?_⟩
    rw [Failure.naming_of_isWritable writable]
    exact deep

end Setting

namespace Machine

variable {s : Setting} {m m' : Machine} {a b : Address} {as : List Address} {t : Task}
  {outer : List (Address × Task)}

def innermost (root : Task) : List (Address × Task) → Task
  | [] => root
  | (_, t) :: _ => t

def top (m : Machine) : Task := innermost m.root m.nested

theorem top_of_nil (bottom : m.nested = []) : m.top = m.root := by
  simp [top, innermost, bottom]

theorem top_of_cons (nested : m.nested = (b, t) :: outer) : m.top = t := by
  simp [top, innermost, nested]

/-- The state in which the innermost formula still has some references to visit. -/
def proceed (m : Machine) (pending : List Address) : Machine :=
  match m.nested with
  | [] => { m with root := { m.root with pending } }
  | (b, t) :: outer => { m with nested := (b, { t with pending }) :: outer }

@[simp] theorem proceed_memo : (m.proceed as).memo = m.memo := by
  unfold proceed
  split <;> rfl

@[simp] theorem proceed_stack : (m.proceed as).stack = m.stack := by
  unfold proceed
  split <;> rfl

@[simp] theorem proceed_root_body : (m.proceed as).root.body = m.root.body := by
  unfold proceed
  split <;> rfl

@[simp] theorem proceed_depth : (m.proceed as).depth = m.depth := by
  unfold proceed depth
  split
  · rfl
  · rename_i nested
    rw [nested]
    rfl

@[simp] theorem settle_memo {x : Number} {notes : List Note} :
    (m.settle a x notes).memo = (a.coordinate, x) :: m.memo := rfl

@[simp] theorem settle_stack {x : Number} {notes : List Note} :
    (m.settle a x notes).stack = m.stack := rfl

@[simp] theorem enter_memo {e : Expr} : (m.enter a e).memo = m.memo := rfl

@[simp] theorem enter_stack {e : Expr} : (m.enter a e).stack = m.stack.push a := rfl

theorem step_finish (bottom : m.nested = []) (visited : m.root.pending = []) :
    m.step s = .done (m.root.value m.memo) m := by
  unfold step
  simp only [bottom, visited]

theorem step_leave (nested : m.nested = (b, t) :: outer) (visited : t.pending = []) :
    m.step s = leave b t outer m := by
  unfold step
  simp only [nested, visited]

theorem step_visit (next : m.top.pending = a :: as) : m.step s = visit s a (m.proceed as) := by
  unfold step proceed
  cases nested : m.nested with
  | nil =>
    rw [top_of_nil nested] at next
    simp only [next]
  | cons f outer =>
    obtain ⟨b, t⟩ := f
    rw [top_of_cons nested] at next
    simp only [next]

structure Unseen (m : Machine) (a : Address) : Prop where
  unknown : ¬ m.memo.Has a.coordinate
  absent : m.stack.contains a = false

theorem visit_known (known : m.memo.Has a.coordinate) : visit s a m = .next m :=
  if_pos known

theorem visit_closed (mirrored : m.stack.Mirrored) (unknown : ¬ m.memo.Has a.coordinate)
    (member : a.coordinate ∈ m.stack.entries.map Address.coordinate) :
    visit s a m = .done (.error (.circular (CellIndex.closedPath m.stack.entries a))) m := by
  refine (if_neg unknown).trans ?_
  rw [if_pos (mirrored.contains_iff.mpr member), CallStack.cyclePath_of_mem member]

theorem visit_unseen (unseen : m.Unseen a) : visit s a m = visitNew s a m := by
  refine (if_neg unseen.unknown).trans ?_
  rw [unseen.absent]
  rfl

theorem visitNew_eq :
    visitNew s a m =
      match s.index.finding a.coordinate with
      | .value x notes => .next (m.settle a x notes)
      | .formula e =>
        match s.exceeded? m.depth with
        | some limit => .done (.error (.naming limit (.tooDeep limit a.coordinate))) m
        | none => .next (m.enter a e)
      | .failure f =>
        match s.exceeded? m.depth with
        | some limit => .done (.error (.naming limit (.tooDeep limit a.coordinate))) m
        | none => .done (.error f) m := by
  unfold visitNew CellIndex.finding
  cases s.index.get? a.coordinate with
  | none => rfl
  | some content =>
    dsimp only
    cases content.body? with
    | none => rfl
    | some body =>
      dsimp only
      cases Expr.parse body with
      | error f => rfl
      | ok e => rfl

theorem visit_value {x : Number} {notes : List Note} (unseen : m.Unseen a)
    (found : s.index.finding a.coordinate = .value x notes) :
    visit s a m = .next (m.settle a x notes) := by
  rw [visit_unseen unseen, visitNew_eq, found]

theorem visit_formula {e : Expr} (unseen : m.Unseen a)
    (found : s.index.finding a.coordinate = .formula e) :
    visit s a m =
      match s.exceeded? m.depth with
      | some limit => .done (.error (.naming limit (.tooDeep limit a.coordinate))) m
      | none => .next (m.enter a e) := by
  rw [visit_unseen unseen, visitNew_eq, found]

theorem visit_failure {f : Failure} (unseen : m.Unseen a)
    (found : s.index.finding a.coordinate = .failure f) :
    visit s a m =
      match s.exceeded? m.depth with
      | some limit => .done (.error (.naming limit (.tooDeep limit a.coordinate))) m
      | none => .done (.error f) m := by
  rw [visit_unseen unseen, visitNew_eq, found]

/-- All that a step which does not end the resolution can do. -/
inductive Moves (s : Setting) (m : Machine) : Machine → Prop where
  | skipped {a : Address} {as : List Address} (next : m.top.pending = a :: as)
      (known : m.memo.Has a.coordinate) : Moves s m (m.proceed as)
  | settled {a : Address} {as : List Address} {x : Number} {notes : List Note}
      (next : m.top.pending = a :: as) (unseen : m.Unseen a)
      (found : s.index.finding a.coordinate = .value x notes) :
      Moves s m ((m.proceed as).settle a x notes)
  | entered {a : Address} {as : List Address} {e : Expr} (next : m.top.pending = a :: as)
      (unseen : m.Unseen a) (found : s.index.finding a.coordinate = .formula e)
      (allowed : s.exceeded? m.depth = none) : Moves s m ((m.proceed as).enter a e)
  | left {b : Address} {t : Task} {outer : List (Address × Task)} {x : Number} {stack : CallStack}
      (nested : m.nested = (b, t) :: outer) (visited : t.pending = [])
      (value : t.value m.memo = .ok x) (popped : m.stack.pop = .ok stack) :
      Moves s m { m with nested := outer, stack, memo := (b.coordinate, x) :: m.memo }

/-- All the outcomes that a step can end the resolution with. -/
inductive Ends (s : Setting) (m : Machine) : Except Failure Number → Prop where
  | finished (bottom : m.nested = []) (visited : m.root.pending = []) :
      Ends s m (m.root.value m.memo)
  | failed {f : Failure} (visited : m.top.pending = []) (value : m.top.value m.memo = .error f) :
      Ends s m (.error f)
  | circular {a : Address} {as : List Address} (next : m.top.pending = a :: as)
      (unknown : ¬ m.memo.Has a.coordinate)
      (member : a.coordinate ∈ m.stack.entries.map Address.coordinate) :
      Ends s m (.error (.circular (CellIndex.closedPath m.stack.entries a)))
  | unreadable {a : Address} {as : List Address} {f : Failure} (next : m.top.pending = a :: as)
      (unseen : m.Unseen a) (found : s.index.finding a.coordinate = .failure f)
      (allowed : s.exceeded? m.depth = none) : Ends s m (.error f)
  | tooDeep {a : Address} {as : List Address} {limit : Int} (next : m.top.pending = a :: as)
      (unseen : m.Unseen a) (formula : ∀ x notes, s.index.finding a.coordinate ≠ .value x notes)
      (exceeded : s.exceeded? m.depth = some limit) :
      Ends s m (.error (.naming limit (.tooDeep limit a.coordinate)))

theorem Ends.of_ok {x : Number} (h : Ends s m (.ok x)) : m.nested = [] ∧ m.root.pending = [] := by
  generalize same : (Except.ok x : Except Failure Number) = outcome at h
  cases h with
  | finished bottom visited => exact ⟨bottom, visited⟩
  | failed | circular | unreadable | tooDeep => cases same

theorem Unseen.proceed (unseen : m.Unseen a) : (m.proceed as).Unseen a :=
  ⟨by simpa using unseen.unknown, by simpa using unseen.absent⟩

theorem Moves.step (moves : Moves s m m') : m.step s = .next m' := by
  cases moves with
  | skipped next known =>
    rw [step_visit next]
    exact visit_known (by simpa using known)
  | settled next unseen found =>
    rw [step_visit next]
    exact visit_value unseen.proceed found
  | entered next unseen found allowed =>
    rw [step_visit next, visit_formula unseen.proceed found, proceed_depth, allowed]
  | left nested visited value popped =>
    rw [step_leave nested visited]
    unfold leave
    rw [value, popped]

theorem Ends.step {outcome : Except Failure Number} (mirrored : m.stack.Mirrored)
    (ends : Ends s m outcome) : ∃ last, m.step s = .done outcome last ∧ last.memo = m.memo := by
  cases ends with
  | finished bottom visited => exact ⟨m, step_finish bottom visited, rfl⟩
  | @failed f visited value =>
    refine ⟨m, ?_, rfl⟩
    cases nested : m.nested with
    | nil =>
      have top := top_of_nil nested
      rw [step_finish nested (top ▸ visited), ← top, value]
    | cons task outer =>
      obtain ⟨b, t⟩ := task
      have top := top_of_cons nested
      rw [step_leave nested (top ▸ visited)]
      unfold leave
      rw [← top, value]
  | @circular a as next unknown member =>
    refine ⟨m.proceed as, ?_, proceed_memo⟩
    rw [step_visit next, visit_closed (by simpa using mirrored) (by simpa using unknown)
      (by simpa using member), proceed_stack]
  | @unreadable a as f next unseen found allowed =>
    refine ⟨m.proceed as, ?_, proceed_memo⟩
    rw [step_visit next, visit_failure unseen.proceed found, proceed_depth, allowed]
  | @tooDeep a as limit next unseen formula exceeded =>
    refine ⟨m.proceed as, ?_, proceed_memo⟩
    rw [step_visit next]
    cases found : s.index.finding a.coordinate with
    | value x notes => exact absurd found (formula x notes)
    | formula e => rw [visit_formula unseen.proceed found, proceed_depth, exceeded]
    | failure f => rw [visit_failure unseen.proceed found, proceed_depth, exceeded]

theorem moves_or_ends_of_next (mirrored : m.stack.Mirrored) (next : m.top.pending = a :: as) :
    (∃ m', Moves s m m') ∨ ∃ outcome, Ends s m outcome := by
  by_cases known : m.memo.Has a.coordinate
  · exact .inl ⟨_, .skipped next known⟩
  · by_cases member : a.coordinate ∈ m.stack.entries.map Address.coordinate
    · exact .inr ⟨_, .circular next known member⟩
    · have absent : m.stack.contains a = false := by
        rw [← Bool.not_eq_true, mirrored.contains_iff]
        exact member
      have unseen : m.Unseen a := ⟨known, absent⟩
      cases found : s.index.finding a.coordinate with
      | value x notes => exact .inl ⟨_, .settled next unseen found⟩
      | formula e =>
        cases exceeded : s.exceeded? m.depth with
        | none => exact .inl ⟨_, .entered next unseen found exceeded⟩
        | some limit => exact .inr ⟨_, .tooDeep next unseen (by simp [found]) exceeded⟩
      | failure f =>
        cases exceeded : s.exceeded? m.depth with
        | none => exact .inr ⟨_, .unreadable next unseen found exceeded⟩
        | some limit => exact .inr ⟨_, .tooDeep next unseen (by simp [found]) exceeded⟩

theorem moves_or_ends (aligned : m.Aligned) :
    (∃ m', Moves s m m') ∨ ∃ outcome, Ends s m outcome := by
  cases pending : m.top.pending with
  | cons a as => exact moves_or_ends_of_next aligned.mirrored pending
  | nil =>
    cases value : m.top.value m.memo with
    | error f => exact .inr ⟨_, .failed pending value⟩
    | ok x =>
      cases nested : m.nested with
      | nil =>
        have top := top_of_nil nested
        exact .inr ⟨_, .finished nested (top ▸ pending)⟩
      | cons task outer =>
        obtain ⟨b, t⟩ := task
        have top := top_of_cons nested
        obtain ⟨start, entries⟩ := aligned.nested
        have ending : m.stack.entries = (start ++ (outer.map Prod.fst).reverse) ++ [b] := by
          simp [entries, nested]
        obtain ⟨stack, popped, -⟩ := CallStack.pop_append ending
        exact .inl ⟨_, .left nested (top ▸ pending) (top ▸ value) popped⟩

theorem moves_of_step (aligned : m.Aligned) (step : m.step s = .next m') : Moves s m m' := by
  rcases moves_or_ends (s := s) aligned with ⟨next, moves⟩ | ⟨outcome, ends⟩
  · have same := moves.step
    rw [step] at same
    cases same
    exact moves
  · obtain ⟨last, same, -⟩ := ends.step aligned.mirrored
    rw [step] at same
    cases same

theorem ends_of_step {outcome : Except Failure Number} (aligned : m.Aligned)
    (step : m.step s = .done outcome m') : Ends s m outcome ∧ m'.memo = m.memo := by
  rcases moves_or_ends (s := s) aligned with ⟨next, moves⟩ | ⟨outcome', ends⟩
  · have same := moves.step
    rw [step] at same
    cases same
  · obtain ⟨last, same, memo⟩ := ends.step aligned.mirrored
    rw [step] at same
    cases same
    exact ⟨ends, memo⟩

end Machine

end Spreadsheet
