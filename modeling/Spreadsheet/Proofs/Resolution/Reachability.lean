import Spreadsheet.Proofs.Formula.References
import Spreadsheet.Proofs.Formula.Soundness
import Spreadsheet.Proofs.Resolution.Consistency

namespace Spreadsheet

variable {index : CellIndex} {memo : Memo} {e : Expr} {c d : Coordinate}
  {text body : String}

/-- Some text is an address of the cell. -/
def Coordinate.IsNamed (c : Coordinate) : Prop :=
  ∃ spelled a, Address.parse spelled = .ok a ∧ a.coordinate = c

theorem Expr.isNamed_of_parse (parsed : Expr.parse body = .ok e) (member : c ∈ e.coordinates) :
    c.IsNamed := by
  obtain ⟨ts, -, derived⟩ := exists_derives_of_parse parsed
  obtain ⟨r, reference, same⟩ := Expr.mem_coordinates.mp member
  rw [derived.references_eq] at reference
  obtain ⟨t, -, word⟩ := List.mem_filterMap.mp reference
  exact ⟨r.text, r.address, (Token.Kind.reference?_eq_some_iff.mp word).2, same⟩

/-- All values stay as they are, and only allowed cells get one. -/
structure Memo.Grows (memo longer : Memo) (allowed : Coordinate → Prop) : Prop where
  within : memo.Within longer
  introduced : ∀ c, longer.Has c → memo.Has c ∨ allowed c

namespace Memo.Grows

variable {longer : Memo} {allowed : Coordinate → Prop} {x : Number}

theorem refl (memo : Memo) : memo.Grows memo allowed := ⟨fun _ _ found => found, fun _ => .inl⟩

theorem cons (unknown : ¬ memo.Has c) (allow : allowed c) :
    memo.Grows ((c, x) :: memo) allowed := by
  refine ⟨.cons (Memo.not_has_iff.mp unknown), fun d has => ?_⟩
  rcases Memo.has_cons_iff.mp has with rfl | before
  · exact .inr allow
  · exact .inl before

theorem trans {longest : Memo} (first : memo.Grows longer allowed)
    (second : longer.Grows longest allowed) : memo.Grows longest allowed := by
  refine ⟨fun c x found => second.within c x (first.within c x found), fun c has => ?_⟩
  rcases second.introduced c has with before | allow
  · exact first.introduced c before
  · exact .inr allow

end Memo.Grows

namespace CellIndex

theorem References.isNamed (edge : index.References c d) : d.IsNamed := by
  obtain ⟨e, here, member⟩ := edge
  obtain ⟨content, -, formula⟩ := Option.bind_eq_some_iff.mp here
  obtain ⟨body, -, expr⟩ := Option.bind_eq_some_iff.mp formula
  cases parsed : Expr.parse body with
  | error f =>
    rw [parsed] at expr
    cases expr
  | ok e' =>
    rw [parsed] at expr
    cases expr
    exact Expr.isNamed_of_parse parsed member

theorem Reachable.isNamed (parsed : Expr.parse body = .ok e) (h : index.Reachable e c) :
    c.IsNamed := by
  cases h with
  | direct member => exact Expr.isNamed_of_parse parsed member
  | through _ edge => exact edge.isNamed

theorem Reachable.has {current : Option Address} (h : index.Reachable e c)
    (sound : index.Sound current memo) (known : ∀ d ∈ e.coordinates, memo.Has d) :
    memo.Has c := by
  induction h with
  | direct member => exact known _ member
  | through _ edge ih => exact sound.closed ih edge

theorem leadsTo_iff (formula : formulaBody? text = some body) (parsed : Expr.parse body = .ok e) :
    index.LeadsTo text c ↔ index.Reachable e c := by
  constructor
  · rintro ⟨body', e', formula', parsed', reached⟩
    cases formula.symm.trans formula'
    cases parsed.symm.trans parsed'
    exact reached
  · exact fun reached => ⟨body, e, formula, parsed, reached⟩

end CellIndex

namespace Machine

variable {s : Setting} {current : Option Address} {m m' : Machine} {a : Address}
  {as : List Address} {root : Task} {nested : List (Address × Task)}

/-- The cells of the nested formulas from the outermost one on, and then a reference of the innermost
    formula: the first of them is a reference of the formula asked for. -/
theorem Nested.exists_chain (h : Nested index memo root nested)
    (member : d ∈ (innermost root nested).body.coordinates) :
    ∃ c cs, (nested.map Prod.fst).reverse.map Address.coordinate ++ [d] = c :: cs ∧
      c ∈ root.body.coordinates ∧ index.Chain (c :: cs) := by
  induction h generalizing d with
  | nil => exact ⟨d, [], rfl, member, trivial⟩
  | @cons a t outer rest formula called ih =>
    obtain ⟨c, cs, cells, first, chain⟩ := ih called.referenced
    have edge : index.References a.coordinate d := (CellIndex.references_iff formula).mpr member
    refine ⟨c, cs ++ [d], ?_, first, ?_⟩
    · rw [List.map_cons, List.reverse_cons, List.map_append, List.map_singleton, cells,
        List.cons_append]
    · rw [← cells] at chain
      have longer := chain.concat edge
      rwa [cells] at longer

theorem Nested.reachable (h : Nested index memo root nested)
    (member : d ∈ (innermost root nested).body.coordinates) :
    index.Reachable root.body d := by
  obtain ⟨c, cs, cells, first, chain⟩ := h.exists_chain member
  have start : index.Reachable root.body c := .direct first
  refine start.chain chain d ?_
  rw [← cells]
  simp

namespace Consistent

theorem reachable (h : m.Consistent index current) (next : m.top.pending = a :: as) :
    index.Reachable m.root.body a.coordinate :=
  h.nested.reachable (h.passed.visit next).referenced

theorem grows (h : m.Consistent s.index current) (moves : Moves s m m') :
    m.memo.Grows m'.memo (s.index.Reachable m.root.body) := by
  cases moves with
  | skipped =>
    rw [proceed_memo]
    exact .refl m.memo
  | settled next unseen _ =>
    rw [settle_memo, proceed_memo]
    exact .cons unseen.unknown (h.reachable next)
  | entered =>
    rw [enter_memo, proceed_memo]
    exact .refl m.memo
  | @left b t outer x stack nested _ _ _ =>
    -- The formula below the one that ends references its cell.
    have member : b ∈ m.stack.entries := by
      rw [h.entries, nested, pathTo_cons]
      simp
    have inner := h.nested
    rw [nested] at inner
    cases inner with
    | cons rest _ called => exact .cons (h.fresh b member) (rest.reachable called.referenced)

end Consistent

theorem Reaches.grows (reached : m.Reaches s m') (h : m.Consistent s.index current) :
    m.memo.Grows m'.memo (s.index.Reachable m.root.body) := by
  induction reached with
  | refl => exact .refl m.memo
  | tail before step ih =>
    have between := Reaches.consistent before h
    have growth := between.grows (moves_of_step between.aligned step)
    rw [Reaches.root_body before h] at growth
    exact ih.trans growth

end Machine

end Spreadsheet
