import Spreadsheet.Proofs.Resolution.Separate

namespace Spreadsheet

variable {index : CellIndex} {current : Option Address} {memo longer : Memo} {c : Coordinate}
  {x y : Number}

theorem CellIndex.Gives.unique (first : index.Gives memo c x) (second : index.Gives memo c y) :
    x = y := by
  cases first with
  | own found =>
    cases second with
    | own found' =>
      rw [found] at found'
      cases found'
      rfl
    | formula found' _ _ =>
      rw [found] at found'
      cases found'
  | formula found _ value =>
    cases second with
    | own found' =>
      rw [found] at found'
      cases found'
    | formula found' _ value' =>
      rw [found] at found'
      cases found'
      rw [value] at value'
      cases value'
      rfl

theorem Memo.Within.extend (within : memo.Within longer) (sound : index.Sound current longer)
    (gives : index.Gives memo c x) (has : longer.Has c) : Memo.Within ((c, x) :: memo) longer := by
  intro d y found
  rw [Memo.get?_cons] at found
  by_cases same : d = c
  · rw [if_pos same] at found
    cases found
    obtain ⟨z, there⟩ := Memo.has_iff.mp has
    rw [same, there, (sound.gives there).unique (gives.mono within)]
  · rw [if_neg same] at found
    exact within d y found

namespace Machine

variable {s : Setting} {m m' n n' : Machine} {a : Address} {as : List Address} {t : Task}
  {detour : List (Address × Task)} {outcome : Except Failure Number}

/-- The second state has the values of the first one and others. It is where the first state is, or
    where a detour began that only leads to cells with values in the second state. -/
structure Follows (index : CellIndex) (current : Option Address) (detour : List (Address × Task))
    (m n : Machine) : Prop where
  ahead : m.Consistent index current
  behind : n.Consistent index current
  root : m.root = n.root
  nested : m.nested = detour ++ n.nested
  within : m.memo.Within n.memo
  known : ∀ f ∈ detour, n.memo.Has f.1.coordinate

theorem proceed_of_cons {b : Address} {outer : List (Address × Task)}
    (nested : m.nested = (b, t) :: outer) :
    m.proceed as = { m with nested := (b, { t with pending := as }) :: outer } := by
  unfold proceed
  rw [nested]

namespace Follows

theorem start (sound : index.Sound current memo) (e : Expr) :
    Follows index current [] (.start current [] e) (.start current memo e) :=
  ⟨.start .nil e, .start sound e, rfl, rfl, nofun, nofun⟩

theorem top (h : Follows index current [] m n) : m.top = n.top := by
  unfold Machine.top
  rw [h.root, h.nested, List.nil_append]

theorem stack (h : Follows index current [] m n) : m.stack = n.stack := by
  have entries : m.stack.entries = n.stack.entries := by
    rw [h.ahead.entries, h.behind.entries, h.nested, List.nil_append]
  have keys : m.stack.keys = n.stack.keys := by
    rw [h.ahead.mirrored.1, h.behind.mirrored.1, entries]
  cases stack : m.stack
  cases stack' : n.stack
  simp_all

theorem proceed_root (h : Follows index current [] m n) :
    (m.proceed as).root = (n.proceed as).root := by
  have nested : m.nested = n.nested := h.nested
  unfold proceed
  rw [nested]
  cases n.nested with
  | nil => simp only [h.root]
  | cons => exact h.root

theorem proceed_nested (h : Follows index current [] m n) :
    (m.proceed as).nested = (n.proceed as).nested := by
  have nested : m.nested = n.nested := h.nested
  unfold proceed
  rw [nested]
  cases n.nested with
  | nil => rfl
  | cons => rfl

theorem depth (h : Follows index current [] m n) : m.depth = n.depth := by
  have nested : m.nested = n.nested := h.nested
  unfold Machine.depth
  rw [nested]

theorem unseen (h : Follows index current [] m n) (unseen : m.Unseen a)
    (unknown : ¬ n.memo.Has a.coordinate) : n.Unseen a :=
  ⟨unknown, h.stack ▸ unseen.absent⟩

theorem value (h : Follows index current [] m n) (visited : m.top.pending = []) :
    m.top.value m.memo = m.top.value n.memo := by
  have same : m.top.body.eval m.memo.value = m.top.body.eval n.memo.value :=
    Expr.eval_memo fun c member => (h.within.get? (h.ahead.passed.known visited c member)).symm
  unfold Task.value
  rw [same]

theorem has {f : Address × Task} (h : Follows index current (f :: detour) m n)
    (next : m.top.pending = a :: as) : n.memo.Has a.coordinate := by
  obtain ⟨b, t⟩ := f
  have nested := h.nested
  rw [List.cons_append] at nested
  have member := (h.ahead.passed.visit next).referenced
  have inner := h.ahead.nested
  rw [top_of_cons nested] at member
  rw [nested] at inner
  cases inner with
  | cons _ formula _ =>
    exact h.behind.sound.closed (h.known _ List.mem_cons_self)
      ((CellIndex.references_iff formula).mpr member)

theorem moves_together (h : Follows s.index current [] m n) (moves : Moves s m m') :
    ∃ detour n', Moves s n n' ∧ Follows s.index current detour m' n' := by
  have ahead := h.ahead.moves moves
  cases moves with
  | @skipped a as next known =>
    have moves' : Moves s n (n.proceed as) := .skipped (h.top ▸ next) (h.within.has known)
    exact ⟨[], _, moves', ahead, h.behind.moves moves', h.proceed_root, h.proceed_nested,
      by simpa using h.within, nofun⟩
  | @settled a as x notes next unseen found =>
    by_cases known : n.memo.Has a.coordinate
    · have moves' : Moves s n (n.proceed as) := .skipped (h.top ▸ next) known
      have within := h.within.extend h.behind.sound (.own found) known
      exact ⟨[], _, moves', ahead, h.behind.moves moves', h.proceed_root, h.proceed_nested,
        by simpa [settle] using within, nofun⟩
    · have moves' : Moves s n ((n.proceed as).settle a x notes) :=
        .settled (h.top ▸ next) (h.unseen unseen known) found
      have within : Memo.Within ((a.coordinate, x) :: m.memo) ((a.coordinate, x) :: n.memo) :=
        h.within.cons_cons
      exact ⟨[], _, moves', ahead, h.behind.moves moves', h.proceed_root, h.proceed_nested,
        by simpa [settle] using within, nofun⟩
  | @entered a as e next unseen found allowed =>
    by_cases known : n.memo.Has a.coordinate
    -- The second state skips the cell, and waits until the first one has left it again.
    · have moves' : Moves s n (n.proceed as) := .skipped (h.top ▸ next) known
      refine ⟨[(a, .ofExpr e)], _, moves', ahead, h.behind.moves moves', h.proceed_root, ?_,
        by simpa [enter] using h.within, ?_⟩
      · exact congrArg ((a, Task.ofExpr e) :: ·) h.proceed_nested
      · intro f member
        rw [List.mem_singleton.mp member]
        simpa using known
    · have moves' : Moves s n ((n.proceed as).enter a e) :=
        .entered (h.top ▸ next) (h.unseen unseen known) found (h.depth ▸ allowed)
      refine ⟨[], _, moves', ahead, h.behind.moves moves', h.proceed_root, ?_,
        by simpa [enter] using h.within, nofun⟩
      exact congrArg ((a, Task.ofExpr e) :: ·) h.proceed_nested
  | @left b t outer x stack nested visited value popped =>
    have nested' : n.nested = (b, t) :: outer := h.nested.symm.trans nested
    have same := h.value ((top_of_cons nested).symm ▸ visited)
    rw [top_of_cons nested, value] at same
    have moves' :
        Moves s n { n with nested := outer, stack, memo := (b.coordinate, x) :: n.memo } :=
      .left nested' visited same.symm (h.stack ▸ popped)
    exact ⟨[], _, moves', ahead, h.behind.moves moves', h.root, rfl, h.within.cons_cons, nofun⟩

theorem moves_apart {f : Address × Task} (h : Follows s.index current (f :: detour) m n)
    (moves : Moves s m m') : ∃ detour', Follows s.index current detour' m' n := by
  have ahead := h.ahead.moves moves
  obtain ⟨b, t⟩ := f
  have nested : m.nested = (b, t) :: (detour ++ n.nested) := h.nested
  have known : ∀ t', ∀ f ∈ (b, t') :: detour, n.memo.Has f.1.coordinate := by
    intro t' f member
    rcases List.mem_cons.mp member with rfl | member
    · exact h.known (b, t) List.mem_cons_self
    · exact h.known f (List.mem_cons_of_mem _ member)
  cases moves with
  | @skipped a as next _ =>
    rw [proceed_of_cons nested] at ahead ⊢
    exact ⟨(b, _) :: detour, ahead, h.behind, h.root, rfl, h.within, known _⟩
  | @settled a as x notes next _ found =>
    rw [proceed_of_cons nested] at ahead ⊢
    have within := h.within.extend h.behind.sound (.own found) (h.has next)
    exact ⟨(b, _) :: detour, ahead, h.behind, h.root, rfl, within, known _⟩
  | @entered a as e next _ _ _ =>
    have has := h.has next
    rw [proceed_of_cons nested] at ahead ⊢
    refine ⟨(a, .ofExpr e) :: (b, _) :: detour, ahead, h.behind, h.root, rfl, h.within, ?_⟩
    intro f member
    rcases List.mem_cons.mp member with rfl | member
    · exact has
    · exact known _ f member
  | @left c u outer x stack nested' visited value popped =>
    have gives := h.ahead.gives nested' visited value
    rw [nested] at nested'
    cases nested'
    have within := h.within.extend h.behind.sound gives (h.known (b, t) List.mem_cons_self)
    exact ⟨detour, ahead, h.behind, h.root, rfl, within,
      fun f member => h.known f (List.mem_cons_of_mem _ member)⟩

theorem ends_together (h : Follows s.index current [] m n) (ends : Ends s m outcome)
    (shallow : ¬ s.Exceeded outcome) : Ends s n outcome := by
  cases ends with
  | finished bottom visited =>
    have same := h.value ((top_of_nil bottom).symm ▸ visited)
    rw [top_of_nil bottom] at same
    rw [same, h.root]
    exact .finished (h.nested.symm.trans bottom) (h.root ▸ visited)
  | failed visited value =>
    have same := h.value visited
    rw [value, h.top] at same
    exact .failed (h.top ▸ visited) same.symm
  | @circular a as next _ member =>
    rw [h.stack] at member ⊢
    obtain ⟨b, member', same⟩ := List.mem_map.mp member
    exact .circular (h.top ▸ next) (same ▸ h.behind.fresh b member') member
  | @unreadable a as f next unseen found allowed =>
    have unknown : ¬ n.memo.Has a.coordinate := by
      intro has
      obtain ⟨x, there⟩ := Memo.has_iff.mp has
      exact (h.behind.sound.gives there).finding_ne_failure found
    exact .unreadable (h.top ▸ next) (h.unseen unseen unknown) found (h.depth ▸ allowed)
  | tooDeep _ _ _ exceeded =>
    exact absurd ⟨_, _, (Setting.maxDepth_of_exceeded? exceeded).1, rfl⟩ shallow

/-- A detour does not fail, since the cell where it began has a value in the second state. -/
theorem ends_apart {f : Address × Task} (h : Follows s.index current (f :: detour) m n)
    (ends : Ends s m outcome) : s.Exceeded outcome := by
  rcases h.ahead.direct_top_of_ends ends with found | exceeded
  · cases outcome with
    | ok x =>
      have nested := h.nested
      rw [ends.of_ok.1] at nested
      cases nested
    | error e =>
      obtain ⟨before, ⟨a, t⟩, split⟩ := (List.eq_nil_or_concat (f :: detour)).resolve_left nofun
      have descent := h.ahead.descent
      unfold Machine.top at found
      have nested : m.nested = before ++ ((a, t) :: n.nested) := by
        rw [h.nested, split, List.concat_append]
      rw [nested] at descent found
      have failed := descent.drop.directCell_error (descent.direct_error h.ahead.sound found)
      have has := h.known (a, t) (by simp [split])
      obtain ⟨x, there⟩ := Memo.has_iff.mp has
      rw [h.behind.sound.directCell h.behind.descent.fresh there] at failed
      cases failed
  · exact exceeded

end Follows

theorem Follows.run (h : Follows s.index current detour m n) (aligned : m.Aligned)
    (aligned' : n.Aligned) : (m.run s aligned).1 = (n.run s aligned').1 ∨
      s.Exceeded (m.run s aligned).1 := by
  induction m, aligned using Machine.run.induct (s := s) generalizing detour n with
  | case1 m aligned outcome last done =>
    rw [run_done aligned done]
    obtain ⟨ends, -⟩ := ends_of_step aligned done
    cases detour with
    | cons f detour => exact .inr (h.ends_apart ends)
    | nil =>
      by_cases exceeded : s.Exceeded outcome
      · exact .inr exceeded
      · have ends' := h.ends_together ends exceeded
        obtain ⟨last', done', -⟩ := ends'.step h.behind.mirrored
        rw [run_done aligned' done']
        exact .inl rfl
  | case2 m aligned m' step ih =>
    rw [run_next aligned step]
    have moves := moves_of_step aligned step
    cases detour with
    | cons f detour =>
      -- The second state waits: its next step is the one after the detour.
      obtain ⟨detour', h'⟩ := h.moves_apart moves
      exact ih h' aligned'
    | nil =>
      obtain ⟨detour', n', moves', h'⟩ := h.moves_together moves
      rw [run_next aligned' moves'.step]
      exact ih h' h'.behind.aligned

variable {x : Number}

theorem run_of_known (aligned : m.Aligned) (bottom : m.nested = [])
    (known : ∀ a ∈ m.root.pending, m.memo.Has a.coordinate) :
    (m.run s aligned).1 = m.root.value m.memo := by
  generalize pending : m.root.pending = as at known
  induction as generalizing m with
  | nil => rw [run_done aligned (step_finish bottom pending)]
  | cons a as ih =>
    obtain ⟨first, others⟩ := List.forall_mem_cons.mp known
    have next : m.top.pending = a :: as := by rw [top_of_nil bottom, pending]
    have visited : m.proceed as = { m with root := { m.root with pending := as } } := by
      unfold proceed
      rw [bottom]
    have step : m.step s = .next { m with root := { m.root with pending := as } } :=
      visited ▸ (Moves.skipped next first).step
    rw [run_next aligned step]
    exact ih _ bottom rfl others

theorem Ends.root_value (ends : Ends s m (.ok x)) : m.root.value m.memo = .ok x := by
  generalize same : (Except.ok x : Except Failure Number) = outcome at ends
  cases ends with
  | finished => rfl
  | failed | circular | unreadable | tooDeep => cases same

end Machine

/-- What is asked of a resolver: the value of a text, or another limit. -/
inductive Request where
  | resolve (text : String)
  | limit (maxDepth : Option Int)

namespace Resolver

variable {table : CellTable} {name : Option CellName} {r used : Resolver} {depth : Option Int}

def serve (r : Resolver) : Request → Resolver
  | .resolve text => (r.resolve text).resolver
  | .limit maxDepth => { r with maxDepth }

/-- The resolver `used` is over the cells and the current address of `r`, with values of cells. -/
structure Continues (r used : Resolver) : Prop where
  index : used.index = r.index
  current : used.current = r.current
  sound : used.index.Sound used.current used.memo

theorem Continues.resolve (h : r.Continues used) (text : String) :
    r.Continues (used.resolve text).resolver := by
  rcases used.resolve_cases text with ⟨-, same⟩ | ⟨body, -, ⟨f, -, same⟩ | ⟨e, -, same⟩⟩
  · rw [same]
    exact h
  · rw [same]
    exact ⟨h.index, h.current, h.sound⟩
  · obtain ⟨last, consistent, -, -, memo⟩ := resolveExpr_spec h.sound e
    rw [same]
    refine ⟨h.index, h.current, ?_⟩
    rw [memo]
    exact consistent.sound

theorem Continues.serve (h : r.Continues used) (request : Request) :
    r.Continues (used.serve request) := by
  cases request with
  | resolve text => exact h.resolve text
  | limit maxDepth => exact ⟨h.index, h.current, h.sound⟩

theorem Continues.serveAll (h : r.Continues used) (requests : List Request) :
    r.Continues (requests.foldl Resolver.serve used) := by
  induction requests generalizing used with
  | nil => exact h
  | cons request requests ih => exact ih (h.serve request)

theorem Continues.resolve_outcome (h : r.Continues used) (text : String) :
    let new := ofIndex r.index r.current used.maxDepth
    (used.resolve text).outcome = (new.resolve text).outcome ∨
      new.setting.Exceeded (new.resolve text).outcome := by
  obtain ⟨index, current, maxDepth, memo, stack⟩ := used
  obtain ⟨same, here, sound⟩ := h
  cases same
  cases here
  intro new
  cases formula : formulaBody? text with
  | none => exact .inl (by rw [resolve_of_literal formula, resolve_of_literal formula])
  | some body =>
    cases parsed : Expr.parse body with
    | error f =>
      exact .inl (by
        rw [resolve_of_unreadable formula parsed, resolve_of_unreadable formula parsed])
    | ok e =>
      rw [resolve_of_formula formula parsed, resolve_of_formula formula parsed]
      have follows := Machine.Follows.start sound e
      have same := follows.run (s := new.setting) follows.ahead.aligned follows.behind.aligned
      exact same.imp_left Eq.symm

theorem has_of_resolveExpr {e : Expr} (sound : r.index.Sound r.current r.memo)
    (value : (r.resolveExpr e).outcome = .ok x) (member : c ∈ e.coordinates) :
    (r.resolveExpr e).resolver.memo.Has c := by
  obtain ⟨last, consistent, same, ends, memo⟩ := resolveExpr_spec sound e
  rw [value] at ends
  -- At the end only the formula asked for is in progress, and all its references have values.
  obtain ⟨bottom, visited⟩ := ends.of_ok
  have top := Machine.top_of_nil bottom
  have known := consistent.passed.known (top ▸ visited)
  rw [top, same] at known
  rw [memo]
  exact known c member

/-- A text that has come to a value comes to it again, whatever the limit is then. -/
theorem resolve_again {text : String} (sound : r.index.Sound r.current r.memo)
    (value : (r.resolve text).outcome = .ok x) (limit : Option Int) :
    (((r.resolve text).resolver.serve (.limit limit)).resolve text).outcome = .ok x := by
  rcases r.resolve_cases text with
    ⟨literal, same⟩ | ⟨body, formula, ⟨f, -, same⟩ | ⟨e, parsed, same⟩⟩
  · rw [same] at value ⊢
    rw [resolve_of_literal literal]
    exact value
  · rw [same] at value
    cases value
  · rw [same] at value ⊢
    have known := fun a (cell : a ∈ e.cells) =>
      has_of_resolveExpr sound value (List.mem_map_of_mem cell)
    obtain ⟨last, -, body, ends, memo⟩ := resolveExpr_spec sound e
    rw [value] at ends
    rw [resolve_of_formula formula parsed, ← ends.root_value, Task.value, body, ← memo]
    exact Machine.run_of_known _ rfl known

theorem resolveExpr_exceeded {q : Reference} {limit : Int}
    (unseen : (Machine.start r.current r.memo (.ref q)).Unseen q.address)
    (formula : ∀ y notes, r.index.finding q.address.coordinate ≠ .value y notes)
    (limited : r.maxDepth = some limit) (low : limit < 1) :
    (r.resolveExpr (.ref q)).outcome =
      .error (.naming limit (.tooDeep limit q.address.coordinate)) := by
  have aligned := Machine.start_aligned r.current r.memo (.ref q)
  have exceeded :
      r.setting.exceeded? (Machine.start r.current r.memo (.ref q)).depth = some limit := by
    rw [Setting.exceeded?, setting, limited]
    exact if_pos low
  have ends : Machine.Ends r.setting (Machine.start r.current r.memo (.ref q)) _ :=
    .tooDeep rfl unseen formula exceeded
  obtain ⟨last, done, -⟩ := ends.step aligned.mirrored
  exact congrArg Prod.fst (Machine.run_done aligned done)

/-- Whatever a resolver was asked before, a text has the outcome that it has with a new resolver,
    unless the new one exceeds the limit, whether or not it can write it. -/
theorem resolve_after_requests (fresh : ofTable table name depth = .ok r)
    (requests : List Request) (text : String) :
    let used := requests.foldl serve r
    ∃ new, ofTable table name used.maxDepth = .ok new ∧
      ((used.resolve text).outcome = (new.resolve text).outcome ∨
        new.setting.Exceeded (new.resolve text).outcome) := by
  intro used
  have start : r.Continues r := ⟨rfl, rfl, sound_of_ofTable fresh⟩
  exact ⟨_, ofTable_eq_ok fresh _, (start.serveAll requests).resolve_outcome text⟩

theorem resolve_after_loop :
    ∃ r new, ofTable [(.text "A1", .text "=C1+B1"), (.text "B1", .text "=A1")] none none = .ok r ∧
      ofTable [(.text "A1", .text "=C1+B1"), (.text "B1", .text "=A1")] none
        ([Request.resolve "=B1", .limit (some 5)].foldl serve r).maxDepth = .ok new ∧
      ((([Request.resolve "=B1", .limit (some 5)].foldl serve r).resolve "=C1").outcome =
          (new.resolve "=C1").outcome ∨
        new.setting.Exceeded (new.resolve "=C1").outcome) := by
  have fresh : ofTable [(.text "A1", .text "=C1+B1"), (.text "B1", .text "=A1")] none none =
      .ok (ofIndex [(⟨0, 0⟩, { formula := some "=C1+B1" }), (⟨1, 0⟩, { formula := some "=A1" })]
        none none) := rfl
  obtain ⟨new, again, same⟩ :=
    resolve_after_requests fresh [Request.resolve "=B1", .limit (some 5)] "=C1"
  exact ⟨_, new, fresh, again, same⟩

/-- Under a limit that cannot be written, a resolver has the value that it keeps, and a new one fails
    to say that the limit is exceeded. -/
theorem resolve_after_unwritable_limit :
    let table : CellTable := [(.text "A1", .text "=B1")]
    let limit : Int := -(Nat.pow 10 digitLimit : Nat)
    let requests : List Request := [.resolve "=A1", .limit (some limit)]
    ∃ r new, ofTable table none none = .ok r ∧ ofTable table none (some limit) = .ok new ∧
      (requests.foldl serve r).maxDepth = new.maxDepth ∧
      ((requests.foldl serve r).resolve "=A1").outcome = .ok (.double 0.0) ∧
      (new.resolve "=A1").outcome = .error .unwritable ∧
      Failure.unwritable.kind ≠ Failure.Kind.depth := by
  intro table limit requests
  let index : CellIndex := [(⟨0, 0⟩, { formula := some "=B1" })]
  let here : Reference := ⟨⟨0, 0, false, false⟩, "A1"⟩
  let there : Reference := ⟨⟨1, 0, false, false⟩, "B1"⟩
  have fresh : ofTable table none none = .ok (ofIndex index none none) := rfl
  have starts : formulaBody? "=A1" = some "A1" := rfl
  have parsed : Expr.parse "A1" = .ok (.ref here) := Expr.parse_address rfl
  have found : index.finding here.address.coordinate = .formula (.ref there) :=
    CellIndex.finding_of_formula rfl rfl (Expr.parse_address rfl)
  have inner : index.directCell [here.address] there.address = .ok (.double 0.0) := by
    rw [CellIndex.directCell_of_not_mem (by decide), CellIndex.finding_of_none rfl]
  have cell : index.directCell [] here.address = .ok (.double 0.0) := by
    rw [CellIndex.directCell_of_not_mem List.not_mem_nil, found]
    refine (CellIndex.direct_ref fun x value => ?_).trans inner
    cases inner.symm.trans value
    exact ⟨_, rfl, rfl⟩
  have value : ((ofIndex index none none).resolve "=A1").outcome = .ok (.double 0.0) := by
    rw [resolve_ofIndex starts, parsed]
    refine (CellIndex.direct_ref fun x value => ?_).trans cell
    cases cell.symm.trans value
    exact ⟨_, rfl, rfl⟩
  have exceeded : ((ofIndex index none (some limit)).resolve "=A1").outcome =
      .error (.naming limit (.tooDeep limit here.address.coordinate)) := by
    rw [resolve_of_formula starts parsed]
    refine resolveExpr_exceeded ⟨nofun, rfl⟩ (fun y notes same => ?_) rfl ?_
    · cases found.symm.trans same
    · exact Int.lt_of_le_of_lt (Int.neg_nonpos_of_nonneg (Int.natCast_nonneg _)) Int.one_pos
  rw [Failure.naming_of_not_isWritable Failure.not_isWritable_neg_pow] at exceeded
  exact ⟨_, _, fresh, rfl, rfl, resolve_again (sound_of_ofTable fresh) value (some limit), exceeded,
    nofun⟩

end Resolver

end Spreadsheet
