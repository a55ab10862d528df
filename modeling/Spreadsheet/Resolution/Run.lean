import Spreadsheet.Resolution.Machine

namespace Spreadsheet

namespace Machine

/-- The stack ends with the cells whose formulas are nested, and holds every cell once. -/
structure Aligned (m : Machine) : Prop where
  mirrored : m.stack.Mirrored
  nested : ∃ start, m.stack.entries = start ++ (m.nested.map Prod.fst).reverse

/-- The formula cells that are neither resolved nor on the stack. -/
def untouched (s : Setting) (m : Machine) : Nat :=
  s.index.countP fun (c, content) =>
    content.isFormula && (m.memo.get? c).isNone && ! m.stack.keys.contains c

/-- The references that are still to be visited, and the formulas that are still to be ended. -/
def remaining (m : Machine) : Nat :=
  m.root.pending.length + m.nested.foldr (fun f n => f.2.pending.length + 1 + n) 0

end Machine

theorem Memo.get?_cons_isNone {memo : Memo} {c k : Coordinate} {x : Number}
    (h : (Memo.get? ((k, x) :: memo) c).isNone = true) :
    c ≠ k ∧ (Memo.get? memo c).isNone = true := by
  unfold Memo.get? at h ⊢
  by_cases same : c == k
  · simp [List.lookup_cons, same] at h
  · simp only [List.lookup_cons, same] at h
    exact ⟨fun e => same (by simp [e]), h⟩

namespace Machine

theorem untouched_settle_le (s : Setting) (m : Machine) (a : Address) (x : Number)
    (notes : List Note) : (m.settle a x notes).untouched s ≤ m.untouched s := by
  apply List.countP_mono_left
  intro entry _ h
  simp only [settle, Bool.and_eq_true] at h ⊢
  exact ⟨⟨h.1.1, (Memo.get?_cons_isNone h.1.2).2⟩, h.2⟩

theorem untouched_enter_lt {s : Setting} {m : Machine} {a : Address} (e : Expr)
    {content : CellContent} (found : s.index.get? a.coordinate = some content)
    (formula : content.isFormula = true) (unresolved : (m.memo.get? a.coordinate).isSome = false)
    (absent : m.stack.contains a = false) : (m.enter a e).untouched s < m.untouched s := by
  have fresh : m.stack.keys.contains a.coordinate = false := absent
  have none : (m.memo.get? a.coordinate).isNone = true := by
    cases h : m.memo.get? a.coordinate <;> simp_all
  apply CellIndex.countP_lt (x := (a.coordinate, content))
  · intro entry h
    simp only [enter, CallStack.push_keys absent, Bool.and_eq_true, Bool.not_eq_true',
      List.contains_eq_mem, List.mem_append, decide_eq_false_iff_not] at h ⊢
    exact ⟨h.1, fun member => h.2 (Or.inl member)⟩
  · exact CellIndex.mem_of_get? found
  · simp only [formula, none, fresh]
    rfl
  · simp [enter, CallStack.push_keys absent]

theorem Aligned.enter {m : Machine} {a : Address} (e : Expr) (h : m.Aligned)
    (absent : m.stack.contains a = false) : (m.enter a e).Aligned := by
  obtain ⟨start, entries⟩ := h.nested
  exact ⟨h.mirrored.push absent, start, by simp [Machine.enter, CallStack.push, entries]⟩

/-- A visit leaves the nested formulas as they are, or begins a formula that was untouched. -/
theorem visit_next {s : Setting} {a : Address} {m m' : Machine} (h : m.Aligned)
    (e : visit s a m = .next m') :
    m'.Aligned ∧ (m'.untouched s < m.untouched s ∨
      m'.untouched s ≤ m.untouched s ∧ m'.remaining = m.remaining) := by
  unfold visit at e
  split at e
  · cases e
    exact ⟨h, .inr ⟨Nat.le_refl _, rfl⟩⟩
  · rename_i unresolved
    split at e
    · split at e <;> cases e
    · rename_i absent
      unfold visitNew at e
      split at e
      · cases e
        exact ⟨⟨h.mirrored, h.nested⟩, .inr ⟨untouched_settle_le .., rfl⟩⟩
      · rename_i content found
        split at e
        · cases e
          exact ⟨⟨h.mirrored, h.nested⟩, .inr ⟨untouched_settle_le .., rfl⟩⟩
        · rename_i body formula
          split at e
          · cases e
          · split at e
            · cases e
            · rename_i expr _
              cases e
              have new : m.stack.contains a = false := by simpa using absent
              refine ⟨h.enter expr new, .inl (untouched_enter_lt expr found ?_ ?_ new)⟩
              · simp [CellContent.isFormula, formula]
              · simpa using unresolved

theorem leave_next {s : Setting} {a : Address} {t : Task} {outer : List (Address × Task)}
    {m m' : Machine} (h : m.Aligned) (top : m.nested = (a, t) :: outer) (ended : t.pending = [])
    (e : leave a t outer m = .next m') :
    m'.Aligned ∧ m'.untouched s ≤ m.untouched s ∧ m'.remaining < m.remaining := by
  unfold leave at e
  split at e
  · cases e
  · split at e
    · cases e
    · rename_i stack popped
      cases e
      obtain ⟨b, entries, keys, mirrored⟩ := h.mirrored.pop popped
      obtain ⟨start, nested⟩ := h.nested
      have ends : stack.entries ++ [b] = (start ++ (outer.map Prod.fst).reverse) ++ [a] := by
        rw [← entries, nested, top]
        simp
      obtain ⟨rest, last⟩ := List.append_inj' ends rfl
      have same : b = a := by simpa using last
      refine ⟨⟨mirrored, start, rest⟩, ?_, ?_⟩
      · apply List.countP_mono_left
        intro entry _ h
        simp only [Bool.and_eq_true, Bool.not_eq_true', List.contains_eq_mem,
          decide_eq_false_iff_not] at h ⊢
        obtain ⟨other, none⟩ := Memo.get?_cons_isNone h.1.2
        refine ⟨⟨h.1.1, none⟩, ?_⟩
        rw [keys, same]
        intro member
        rcases List.mem_append.mp member with member | member
        · exact h.2 member
        · exact other (List.mem_singleton.mp member)
      · simp [remaining, top, ended]

/-- A step that does not end the resolution begins an untouched formula, or leaves less to do. -/
theorem step_next {s : Setting} {m m' : Machine} (h : m.Aligned) (e : m.step s = .next m') :
    m'.Aligned ∧ (m'.untouched s < m.untouched s ∨
      m'.untouched s ≤ m.untouched s ∧ m'.remaining < m.remaining) := by
  unfold step at e
  split at e
  · rename_i bottom
    split at e
    · cases e
    · rename_i a pending more
      have same : Machine.Aligned { m with root := { m.root with pending := pending } } :=
        ⟨h.mirrored, h.nested⟩
      obtain ⟨aligned, progress⟩ := visit_next same e
      refine ⟨aligned, progress.imp id fun both => ⟨both.1, ?_⟩⟩
      rw [both.2]
      simp [remaining, more]
  · rename_i b t outer top
    split at e
    · rename_i ended
      obtain ⟨aligned, le, lt⟩ := leave_next h top ended e
      exact ⟨aligned, .inr ⟨le, lt⟩⟩
    · rename_i a pending more
      have same : Machine.Aligned { m with nested := (b, { t with pending := pending }) :: outer } :=
        ⟨h.mirrored, by simpa [top] using h.nested⟩
      obtain ⟨aligned, progress⟩ := visit_next same e
      refine ⟨aligned, progress.imp id fun both => ⟨both.1, ?_⟩⟩
      rw [both.2]
      simp [remaining, more, top]

/-- Steps until the resolution ends: the outcome, and the state that it leaves. -/
def run (s : Setting) (m : Machine) (h : m.Aligned) : Except Failure Number × Machine :=
  match e : m.step s with
  | .done outcome last => (outcome, last)
  | .next m' => run s m' (step_next h e).1
termination_by (m.untouched s, m.remaining)
decreasing_by
  rcases (step_next h e).2 with less | ⟨le, less⟩
  · exact Prod.Lex.left _ _ less
  · rcases Nat.lt_or_eq_of_le le with less' | same
    · exact Prod.Lex.left _ _ less'
    · rw [same]
      exact Prod.Lex.right _ less

/-- The state in which the resolution of an expression begins. -/
def start (current : Option Address) (memo : Memo) (e : Expr) : Machine :=
  ⟨Task.ofExpr e, [], CallStack.ofCurrent current, memo, []⟩

theorem start_aligned (current : Option Address) (memo : Memo) (e : Expr) :
    (start current memo e).Aligned :=
  ⟨.ofCurrent current, (CallStack.ofCurrent current).entries, by simp [start]⟩

end Machine

end Spreadsheet
