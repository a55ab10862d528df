import Spreadsheet.Proofs.Resolution.Step

namespace Spreadsheet

namespace Task

variable {t : Task} {memo longer : Memo} {a : Address} {as next : List Address}

/-- The cells of the expression are the ones that have values, these ones, and the pending ones. -/
def Passed (t : Task) (memo : Memo) (next : List Address) : Prop :=
  ∃ passed, t.body.cells = passed ++ next ++ t.pending ∧ ∀ a ∈ passed, memo.Has a.coordinate

theorem Passed.ofExpr (memo : Memo) (e : Expr) : (ofExpr e).Passed memo [] :=
  ⟨[], rfl, nofun⟩

theorem Passed.mono (within : memo.Within longer) (h : t.Passed memo next) :
    t.Passed longer next := by
  obtain ⟨passed, cells, known⟩ := h
  exact ⟨passed, cells, fun a member => within.has (known a member)⟩

theorem Passed.visit (h : t.Passed memo []) (next : t.pending = a :: as) :
    Passed { t with pending := as } memo [a] := by
  obtain ⟨passed, cells, known⟩ := h
  refine ⟨passed, ?_, known⟩
  rw [cells, next]
  simp

theorem Passed.settle (h : t.Passed memo [a]) (has : memo.Has a.coordinate) :
    t.Passed memo [] := by
  obtain ⟨passed, cells, known⟩ := h
  refine ⟨passed ++ [a], by rw [cells, List.append_nil], ?_⟩
  intro b member
  rcases List.mem_append.mp member with member | last
  · exact known b member
  · rw [List.mem_singleton.mp last]
    exact has

theorem Passed.known (h : t.Passed memo []) (visited : t.pending = []) :
    ∀ c ∈ t.body.coordinates, memo.Has c := by
  obtain ⟨passed, cells, known⟩ := h
  rw [visited, List.append_nil, List.append_nil] at cells
  intro c member
  obtain ⟨a, cell, rfl⟩ := List.mem_map.mp member
  exact known a (cells ▸ cell)

theorem Passed.referenced (h : t.Passed memo (a :: next)) :
    a.coordinate ∈ t.body.coordinates := by
  obtain ⟨passed, cells, -⟩ := h
  refine List.mem_map_of_mem (f := Address.coordinate) ?_
  rw [cells]
  simp

end Task

namespace Machine

variable {s : Setting} {current : Option Address} {m m' last : Machine} {a b : Address}
  {as : List Address} {t root : Task} {outer nested : List (Address × Task)} {memo longer : Memo}

theorem proceed_top : (m.proceed as).top = { m.top with pending := as } := by
  unfold proceed top
  cases m.nested <;> rfl

theorem proceed_nested_cells : (m.proceed as).nested.map Prod.fst = m.nested.map Prod.fst := by
  unfold proceed
  cases m.nested <;> rfl

/-- The nested formulas stand in their cells, and the next formula out is at each of these cells. -/
inductive Nested (index : CellIndex) (memo : Memo) (root : Task) :
    List (Address × Task) → Prop where
  | nil : Nested index memo root []
  | cons {a : Address} {t : Task} {outer : List (Address × Task)}
      (rest : Nested index memo root outer)
      (formula : index.finding a.coordinate = .formula t.body)
      (called : (innermost root outer).Passed memo [a]) : Nested index memo root ((a, t) :: outer)

theorem Nested.mono {index : CellIndex} (within : memo.Within longer)
    (h : Nested index memo root nested) : Nested index longer root nested := by
  induction h with
  | nil => exact .nil
  | cons rest formula called ih => exact .cons ih formula (called.mono within)

theorem Nested.proceed {index : CellIndex} (h : Nested index memo m.root m.nested) :
    Nested index memo (m.proceed as).root (m.proceed as).nested := by
  unfold Machine.proceed
  cases nested : m.nested with
  | nil => exact .nil
  | cons f outer =>
    obtain ⟨b, t⟩ := f
    rw [nested] at h
    cases h with
    | cons rest formula called => exact .cons rest formula called

/-- The current address, and the cells of nested formulas from the outermost one on. -/
def pathTo (current : Option Address) (nested : List (Address × Task)) : List Address :=
  current.toList ++ (nested.map Prod.fst).reverse

theorem pathTo_cons : pathTo current ((a, t) :: nested) = pathTo current nested ++ [a] := by
  simp [pathTo]

theorem pathTo_congr {other : List (Address × Task)}
    (same : nested.map Prod.fst = other.map Prod.fst) :
    pathTo current nested = pathTo current other := by
  unfold pathTo
  rw [same]

theorem mem_pathTo {c : Coordinate} (stands : StandsAt current c) :
    c ∈ (pathTo current nested).map Address.coordinate := by
  cases current with
  | none => cases stands
  | some a =>
    cases stands
    simp [pathTo]

/-- The stack holds the current address and the cells of the nested formulas, the values are sound,
    and no cell on the stack has one yet. -/
structure Consistent (index : CellIndex) (current : Option Address) (m : Machine) : Prop where
  entries : m.stack.entries = pathTo current m.nested
  mirrored : m.stack.Mirrored
  sound : index.Sound current m.memo
  fresh : ∀ b ∈ m.stack.entries, ¬ m.memo.Has b.coordinate
  nested : Nested index m.memo m.root m.nested
  passed : m.top.Passed m.memo []

namespace Consistent

theorem aligned {index : CellIndex} (h : m.Consistent index current) : m.Aligned :=
  ⟨h.mirrored, current.toList, h.entries⟩

theorem start {index : CellIndex} (sound : index.Sound current memo) (e : Expr) :
    (Machine.start current memo e).Consistent index current := by
  refine ⟨?_, .ofCurrent current, sound, ?_, .nil, .ofExpr memo e⟩
  · cases current <;> rfl
  · intro b member has
    cases current with
    | none => cases member
    | some a =>
      rw [List.mem_singleton.mp member] at has
      exact sound.away has rfl

theorem not_mem {index : CellIndex} (h : m.Consistent index current) (unseen : m.Unseen a) :
    a.coordinate ∉ m.stack.entries.map Address.coordinate := by
  rw [← h.mirrored.contains_iff, unseen.absent]
  simp

theorem distinct {index : CellIndex} (h : m.Consistent index current) :
    ((pathTo current m.nested).map Address.coordinate).Nodup := by
  rw [← h.entries, ← h.mirrored.1]
  exact h.mirrored.2

theorem away {index : CellIndex} (h : m.Consistent index current) (unseen : m.Unseen a) :
    ¬ StandsAt current a.coordinate := by
  intro stands
  have absent := h.not_mem unseen
  rw [h.entries] at absent
  exact absent (mem_pathTo stands)

theorem proceed {index : CellIndex} (h : m.Consistent index current)
    (next : m.top.pending = a :: as) (known : m.memo.Has a.coordinate) :
    (m.proceed as).Consistent index current := by
  refine ⟨?_, ?_, ?_, ?_, ?_, ?_⟩
  · rw [proceed_stack, h.entries]
    exact pathTo_congr proceed_nested_cells.symm
  · simpa using h.mirrored
  · simpa using h.sound
  · simpa using h.fresh
  · simpa using h.nested.proceed
  · rw [proceed_top, proceed_memo]
    exact (h.passed.visit next).settle known

theorem settle {index : CellIndex} {x : Number} {notes : List Note} (h : m.Consistent index current)
    (next : m.top.pending = a :: as) (unseen : m.Unseen a)
    (found : index.finding a.coordinate = .value x notes) :
    ((m.proceed as).settle a x notes).Consistent index current := by
  have within : m.memo.Within ((a.coordinate, x) :: m.memo) :=
    .cons (Memo.not_has_iff.mp unseen.unknown)
  have same : ((m.proceed as).settle a x notes).memo = (a.coordinate, x) :: m.memo := by
    simp [Machine.settle]
  refine ⟨?_, ?_, ?_, ?_, ?_, ?_⟩
  · simp only [Machine.settle, proceed_stack, h.entries]
    exact pathTo_congr proceed_nested_cells.symm
  · simpa [Machine.settle] using h.mirrored
  · rw [same]
    exact .cons h.sound unseen.unknown (h.away unseen) (.own found)
  · rw [same]
    intro b member has
    have member : b ∈ m.stack.entries := by simpa [Machine.settle] using member
    rcases Memo.has_cons_iff.mp has with here | has
    · exact h.not_mem unseen (here ▸ List.mem_map_of_mem member)
    · exact h.fresh b member has
  · rw [same]
    exact (h.nested.mono within).proceed
  · rw [same]
    have top : ((m.proceed as).settle a x notes).top = { m.top with pending := as } := proceed_top
    rw [top]
    exact ((h.passed.mono within).visit next).settle (Memo.has_cons_iff.mpr (.inl rfl))

theorem enter {index : CellIndex} {e : Expr} (h : m.Consistent index current)
    (next : m.top.pending = a :: as) (unseen : m.Unseen a)
    (found : index.finding a.coordinate = .formula e) :
    ((m.proceed as).enter a e).Consistent index current := by
  have same : ((m.proceed as).enter a e).memo = m.memo := by simp [Machine.enter]
  refine ⟨?_, ?_, ?_, ?_, ?_, ?_⟩
  · simp only [Machine.enter, CallStack.push, proceed_stack, pathTo_cons, h.entries]
    rw [pathTo_congr proceed_nested_cells]
  · have absent : (m.proceed as).stack.contains a = false := by simpa using unseen.absent
    have mirrored : (m.proceed as).stack.Mirrored := by simpa using h.mirrored
    exact mirrored.push absent
  · rw [same]
    exact h.sound
  · rw [same]
    intro b member
    have member : b ∈ m.stack.entries ∨ b = a := by
      simpa [Machine.enter, CallStack.push] using member
    rcases member with member | rfl
    · exact h.fresh b member
    · exact unseen.unknown
  · rw [same]
    refine .cons h.nested.proceed found ?_
    have called := h.passed.visit next
    rw [← proceed_top] at called
    exact called
  · rw [same]
    exact .ofExpr m.memo e

theorem gives {index : CellIndex} {x : Number} (h : m.Consistent index current)
    (nested : m.nested = (b, t) :: outer) (visited : t.pending = [])
    (value : t.value m.memo = .ok x) : index.Gives m.memo b.coordinate x := by
  have passed := h.passed
  have inner := h.nested
  rw [top_of_cons nested] at passed
  rw [nested] at inner
  cases inner with
  | cons _ formula _ => exact .formula formula (passed.known visited) value

theorem leave {index : CellIndex} {x : Number} {stack : CallStack} (h : m.Consistent index current)
    (nested : m.nested = (b, t) :: outer) (visited : t.pending = [])
    (value : t.value m.memo = .ok x) (popped : m.stack.pop = .ok stack) :
    Consistent index current
      { m with nested := outer, stack, memo := (b.coordinate, x) :: m.memo } := by
  obtain ⟨d, split, keys, mirrored⟩ := h.mirrored.pop popped
  have both : stack.entries ++ [d] = pathTo current outer ++ [b] := by
    rw [← split, h.entries, nested, pathTo_cons]
  obtain ⟨entries, same⟩ := List.append_inj' both rfl
  cases same
  -- The cell that gets a value is the last one on the stack, and no other entry is that cell.
  have last : ∀ a ∈ stack.entries, a.coordinate ≠ b.coordinate := by
    have nodup := h.mirrored.2
    rw [keys, List.nodup_append] at nodup
    intro a member
    exact nodup.2.2 _ (mirrored.1 ▸ List.mem_map_of_mem member) _ (List.mem_singleton_self _)
  have unknown : ¬ m.memo.Has b.coordinate := h.fresh b (by simp [split])
  have away : ¬ StandsAt current b.coordinate := by
    intro stands
    obtain ⟨a, member, same⟩ := List.mem_map.mp (mem_pathTo stands)
    exact last a (entries ▸ member) same
  have within : m.memo.Within ((b.coordinate, x) :: m.memo) := .cons (Memo.not_has_iff.mp unknown)
  have inner := h.nested
  rw [nested] at inner
  cases inner with
  | cons rest formula called =>
    refine ⟨entries, mirrored, ?_, ?_, rest.mono within, ?_⟩
    · exact .cons h.sound unknown away (h.gives nested visited value)
    · intro a member has
      rcases Memo.has_cons_iff.mp has with here | has
      · exact last a member here
      · exact h.fresh a (by simp [split, member]) has
    · exact (called.mono within).settle (Memo.has_cons_iff.mpr (.inl rfl))

theorem moves (h : m.Consistent s.index current) (moves : Moves s m m') :
    m'.Consistent s.index current := by
  cases moves with
  | skipped next known => exact h.proceed next known
  | settled next unseen found => exact h.settle next unseen found
  | entered next unseen found _ => exact h.enter next unseen found
  | left nested visited value popped => exact h.leave nested visited value popped

end Consistent

theorem Moves.root_body (moves : Moves s m m') : m'.root.body = m.root.body := by
  cases moves with
  | skipped | settled | entered => exact proceed_root_body
  | left => rfl

def Reaches (s : Setting) : Machine → Machine → Prop :=
  Relation.ReflTransGen fun m m' => m.step s = .next m'

theorem Reaches.consistent (reached : m.Reaches s m') (h : m.Consistent s.index current) :
    m'.Consistent s.index current := by
  induction reached with
  | refl => exact h
  | tail _ step ih => exact ih.moves (moves_of_step ih.aligned step)

theorem Reaches.root_body (reached : m.Reaches s m') (h : m.Consistent s.index current) :
    m'.root.body = m.root.body := by
  induction reached with
  | refl => rfl
  | tail before step ih =>
    have aligned := (Reaches.consistent before h).aligned
    exact (moves_of_step aligned step).root_body.trans ih

theorem run_done {outcome : Except Failure Number} (aligned : m.Aligned)
    (done : m.step s = .done outcome last) : m.run s aligned = (outcome, last) := by
  unfold run
  split
  · rename_i outcome' last' same
    rw [done] at same
    cases same
    rfl
  · rename_i same
    rw [done] at same
    cases same

theorem run_next (aligned : m.Aligned) (step : m.step s = .next m') :
    m.run s aligned = m'.run s (step_next aligned step).1 := by
  rw [run]
  split
  · rename_i same
    rw [step] at same
    cases same
  · rename_i next same
    rw [step] at same
    cases same
    rfl

theorem run_reaches (aligned : m.Aligned) :
    ∃ last, m.Reaches s last ∧ last.step s = .done (m.run s aligned).1 (m.run s aligned).2 := by
  induction m, aligned using Machine.run.induct (s := s) with
  | case1 m aligned outcome last done =>
    refine ⟨m, .refl, ?_⟩
    rw [run_done aligned done]
    exact done
  | case2 m aligned m' step ih =>
    obtain ⟨last, reached, done⟩ := ih
    refine ⟨last, .head step reached, ?_⟩
    rw [run_next aligned step]
    exact done

theorem run_spec (h : m.Consistent s.index current) (aligned : m.Aligned) :
    ∃ last, m.Reaches s last ∧ last.Consistent s.index current ∧
      last.root.body = m.root.body ∧ Ends s last (m.run s aligned).1 ∧
      (m.run s aligned).2.memo = last.memo := by
  obtain ⟨last, reached, done⟩ := run_reaches (s := s) aligned
  have consistent := reached.consistent h
  obtain ⟨ends, memo⟩ := ends_of_step consistent.aligned done
  exact ⟨last, reached, consistent, reached.root_body h, ends, memo⟩

end Machine

end Spreadsheet
