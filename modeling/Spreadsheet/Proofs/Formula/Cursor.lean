import Spreadsheet.Formula.Cursor
import Spreadsheet.Proofs.Formula.Soundness
import Spreadsheet.Proofs.Formula.Unrolling

namespace Spreadsheet

theorem Parsed.Splits.exists_read {α : Type} {n : Nat} {p : Parsed n α} {ts : List Token}
    (h : p.Splits ts fun us _ => us ≠ []) :
    ∃ us, ts = us ++ p.rest ∧ ∀ x, some p.outcome = some (.ok x) → us ≠ [] := by
  obtain ⟨us, read, outcome⟩ := h
  refine ⟨us, read, fun x success => ?_⟩
  rw [Option.some.inj success] at outcome
  exact outcome

theorem Expr.parseWord_reads (ts : List Token) :
    (parseWord ts).Splits ts fun us _ => us ≠ [] := by
  obtain ⟨-, -, -, -, -, -, -, call, -⟩ := parse_splits
  have reference (t : Token) (rest : List Token) :
      (Parsed.skip (ofWord t.text t.position) t rest).Splits (t :: rest) fun us _ => us ≠ [] :=
    .skip (ofWord_fails _ _) fun x _ => List.cons_ne_nil t []
  rcases ts with - | ⟨t, - | ⟨next, rest⟩⟩
  · rw [parseWord]
    exact .refuse trivial
  · rw [parseWord]
    exact reference t []
  · rw [parseWord]
    split
    · exact (call t.text rest).after [t, next] _ fun us x _ => List.cons_ne_nil t _
    · exact reference t (next :: rest)

namespace Cursor

/-- What can be asked of a cursor: a look at the next token, tokens, or phrases. -/
inductive Request where
  | peek
  | read
  | readIf (categories : List Token.Category)
  | parse (phrase : Phrase)
  | parseCall (name : String)
deriving DecidableEq

def serve (c : Cursor) : Request → Cursor
  | .peek => c
  | .read => c.read.2
  | .readIf categories => (c.readIf categories).2
  | .parse phrase => (c.parse phrase).2
  | .parseCall name => (c.parseCall name).2

def outcome? (c : Cursor) : Request → Option (Except Failure Expr)
  | .parse phrase => some (c.parse phrase).1
  | .parseCall name => some (c.parseCall name).1
  | _ => none

/-- A cursor over some tokens, the last of which are left. -/
structure Over (c : Cursor) (ts : List Token) : Prop where
  tokens : c.tokens = ts
  isSuffix : c.rest <:+ ts

variable {c : Cursor} {ts : List Token} {request : Request} {e : Expr}

theorem serve_tokens (c : Cursor) (request : Request) : (c.serve request).tokens = c.tokens := by
  obtain ⟨tokens, rest⟩ := c
  cases request with
  | peek => rfl
  | read => cases rest <;> rfl
  | readIf categories =>
    cases rest with
    | nil => rfl
    | cons t rest =>
      simp only [serve, readIf]
      split <;> rfl
  | parse phrase => cases phrase <;> rfl
  | parseCall name => rfl

/-- A request reads on from where the cursor is, and at least one token if it reads a phrase. -/
theorem exists_read (other : request ≠ .parse .formula) :
    ∃ us, c.rest = us ++ (c.serve request).rest ∧
      ∀ e, c.outcome? request = some (.ok e) → us ≠ [] := by
  obtain ⟨operation, -, -, signed, percent, primary, -, call, -⟩ := Expr.parse_splits
  have derived {phrase : Phrase} (us : List Token) (x : Expr) : Derives phrase us x → us ≠ [] :=
    Derives.ne_nil
  have silent (us : List Token) (e : Expr)
      (success : (none : Option (Except Failure Expr)) = some (.ok e)) : us ≠ [] :=
    absurd success (Option.some_ne_none _).symm
  cases request with
  | peek => exact ⟨[], rfl, silent []⟩
  | read =>
    obtain ⟨tokens, - | ⟨t, rest⟩⟩ := c
    · exact ⟨[], rfl, silent []⟩
    · exact ⟨[t], rfl, silent [t]⟩
  | readIf categories =>
    obtain ⟨tokens, - | ⟨t, rest⟩⟩ := c
    · exact ⟨[], rfl, silent []⟩
    · simp only [serve, readIf]
      split
      · exact ⟨[t], rfl, silent [t]⟩
      · exact ⟨[], rfl, silent []⟩
  | parse phrase =>
    cases phrase with
    | formula => exact absurd rfl other
    | operation level => exact ((operation level c.rest).imp derived).exists_read
    | signed => exact ((signed c.rest).imp derived).exists_read
    | percent => exact ((percent c.rest).imp derived).exists_read
    | primary => exact ((primary c.rest).imp derived).exists_read
    | word => exact (Expr.parseWord_reads c.rest).exists_read
  | parseCall name =>
    refine ((call name c.rest).imp ?_).exists_read
    rintro us x ⟨f, arguments, -, -, -, -, ts, right, rfl, -⟩
    exact List.concat_ne_nil right ts

theorem formula_isSuffix (c : Cursor) : (c.serve (.parse .formula)).rest <:+ c.tokens :=
  (Expr.parseBody_splits _).isSuffix.trans (Expr.dropEqualSign_isSuffix _)

theorem formula_rest (success : c.outcome? (.parse .formula) = some (.ok e)) :
    (c.serve (.parse .formula)).rest = [] := by
  obtain ⟨us, read, whole, -⟩ :=
    (Expr.parseBody_splits (Expr.dropEqualSign c.tokens)).exists_of_ok (Option.some.inj success)
  rw [whole] at read
  exact List.self_eq_append_right.mp read

namespace Over

theorem start (ts : List Token) : (Cursor.start ts).Over ts := ⟨rfl, List.suffix_rfl⟩

theorem serve (h : c.Over ts) (request : Request) : (c.serve request).Over ts := by
  refine ⟨(c.serve_tokens request).trans h.tokens, ?_⟩
  by_cases formula : request = .parse .formula
  · rw [formula, ← h.tokens]
    exact c.formula_isSuffix
  · obtain ⟨us, read, -⟩ := exists_read formula
    have onward : (c.serve request).rest <:+ c.rest := ⟨us, read.symm⟩
    exact onward.trans h.isSuffix

theorem serveAll (h : c.Over ts) (requests : List Request) :
    (requests.foldl Cursor.serve c).Over ts := by
  induction requests generalizing c with
  | nil => exact h
  | cons request requests ih => exact ih (h.serve request)

theorem current_add_length (h : c.Over ts) : c.current + c.rest.length = ts.length := by
  have le := h.isSuffix.length_le
  simp only [current, h.tokens]
  omega

theorem rest_eq_drop (h : c.Over ts) : c.rest = ts.drop c.current := by
  have length := h.current_add_length
  rw [List.suffix_iff_eq_drop.mp h.isSuffix]
  congr 1
  omega

theorem peek_eq (h : c.Over ts) : c.peek = ts[c.current]? := by
  rw [peek, h.rest_eq_drop, List.head?_drop]

theorem current_le (h : c.Over ts) : c.current ≤ ts.length :=
  Nat.le.intro h.current_add_length

theorem current_serve {us : List Token} (h : c.Over ts)
    (read : c.rest = us ++ (c.serve request).rest) :
    (c.serve request).current = c.current + us.length := by
  have length := h.current_add_length
  have length' := (h.serve request).current_add_length
  rw [read, List.length_append] at length
  omega

theorem current_le_serve (h : c.Over ts) (other : request ≠ .parse .formula) :
    c.current ≤ (c.serve request).current := by
  obtain ⟨us, read, -⟩ := exists_read other
  exact Nat.le.intro (h.current_serve read).symm

theorem current_lt_serve (h : c.Over ts) (other : request ≠ .parse .formula)
    (success : c.outcome? request = some (.ok e)) : c.current < (c.serve request).current := by
  obtain ⟨us, read, some⟩ := exists_read other
  rw [h.current_serve read]
  exact Nat.lt_add_of_pos_right (List.length_pos_iff.mpr (some e success))

theorem current_formula (h : c.Over ts) (success : c.outcome? (.parse .formula) = some (.ok e)) :
    (c.serve (.parse .formula)).current = ts.length := by
  have length := (h.serve (.parse .formula)).current_add_length
  rwa [formula_rest success] at length

end Over

/-- Whatever was asked of a cursor before, it is among its tokens, only a formula brings it back, a
    phrase that was read takes it on, and a formula takes it to the end. The parser is nested no
    deeper than its tokens allow. -/
theorem cursor_after_requests (ts : List Token) (requests : List Request) :
    let c := requests.foldl serve (start ts)
    c.tokens = ts ∧ c.rest = ts.drop c.current ∧ c.current ≤ ts.length ∧
      c.peek = ts[c.current]? ∧
      (∀ request, request ≠ .parse .formula → c.current ≤ (c.serve request).current) ∧
      (∀ request e, request ≠ .parse .formula → c.outcome? request = some (.ok e) →
        c.current < (c.serve request).current) ∧
      (∀ e, c.outcome? (.parse .formula) = some (.ok e) →
        (c.serve (.parse .formula)).current = ts.length) ∧
      ∀ m us deeper n, us <:+ ts → 16 * ts.length + 13 < n →
        Expr.Method.unrolled deeper n m us = m.run us := by
  intro c
  have among : c.Over ts := (Over.start ts).serveAll requests
  refine ⟨among.tokens, among.rest_eq_drop, among.current_le, among.peek_eq,
    fun request other => among.current_le_serve other,
    fun request e other => among.current_lt_serve other, fun e => among.current_formula,
    fun m us deeper n left deep => ?_⟩
  have shorter := left.length_le
  have rank := m.rank_le
  refine Expr.Method.unrolled_eq_run ?_
  simp only [Expr.Method.weight]
  omega

theorem cursor_after_read :
    let ts : List Token := [⟨.operator .equal, 0⟩, ⟨.identifier "A1", 1⟩, ⟨.operator .percent, 3⟩]
    let c := [Request.peek, .read].foldl serve (start ts)
    let e := Expr.percent (.ref ⟨⟨0, 0, false, false⟩, "A1"⟩)
    let silent : Expr.Method.Reader := fun _ us => .keep (.error .unexpectedEnd) us
    c.current ≤ (c.serve (.readIf [.operator])).current ∧
      (c.outcome? (.parse .percent) = some (.ok e) ∧
        c.current < (c.serve (.parse .percent)).current) ∧
      (c.outcome? (.parse .formula) = some (.ok e) ∧
        (c.serve (.parse .formula)).current = ts.length) ∧
      Expr.Method.unrolled silent 62 .percent c.rest = Expr.Method.percent.run c.rest := by
  intro ts c e silent
  obtain ⟨-, -, -, -, onward, advances, finishes, ends⟩ := cursor_after_requests ts [.peek, .read]
  have phrase : c.outcome? (.parse .percent) = some (.ok e) := by cbv
  have formula : c.outcome? (.parse .formula) = some (.ok e) := by cbv
  exact ⟨onward _ (by decide), ⟨phrase, advances _ e (by decide) phrase⟩, ⟨formula, finishes e formula⟩,
    ends .percent c.rest silent 62 (List.suffix_cons _ _) (by decide)⟩

end Cursor

end Spreadsheet
