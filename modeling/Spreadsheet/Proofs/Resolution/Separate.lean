import Spreadsheet.Proofs.Fill.Parsing
import Spreadsheet.Proofs.Formula.Double
import Spreadsheet.Proofs.Resolution.Refinement
import Spreadsheet.Proofs.Resolution.Renaming

namespace Spreadsheet

open Relation

variable {index : CellIndex} {path other : List Address} {a b k : Address} {e : Expr}
  {c : Coordinate} {x v : Number}

theorem Expr.outcome_eval_congr {value value' : Address → Except Failure Number}
    (agree : ∀ r ∈ e.references, ∃ x, value r.address = .ok x ∧ value' r.address = .ok x) :
    (e.eval value).outcome = (e.eval value').outcome := by
  refine congrArg Reading.outcome (Expr.eval_congr fun r member => ?_)
  obtain ⟨x, here, there⟩ := agree r member
  rw [here, there]

theorem Failure.renamed_id {α : Type} (x : Except Failure α) : x.mapError (renamed id) = x := by
  cases x with
  | error f =>
    cases f with
    | circular cycle => exact congrArg (fun c => Except.error (circular c)) (List.map_id cycle)
    | _ => rfl
  | ok x => rfl

namespace CellIndex

theorem Renames.refl (index : CellIndex) : Renames id id index index where
  injective := Function.injective_id
  finding c := by
    show FindingRenamed id id (index.finding c) (index.finding c)
    cases found : index.finding c with
    | value x notes => exact .value x notes notes
    | formula e =>
      have same : FindingRenamed id id (.formula e) (.formula (e.mapReferences id)) :=
        .formula fun _ _ => rfl
      rwa [e.mapReferences_id] at same
    | failure f => exact .failure (finding_failure_isLocal found)

theorem direct_congr (same : other.map Address.coordinate = path.map Address.coordinate) :
    index.direct other e = index.direct path e := by
  have paths : other.map Address.coordinate = (path.map Address.coordinate).map id := by
    rw [same, List.map_id]
  have renamed := (Renames.refl index).direct (e := e) paths fun _ _ => rfl
  rwa [e.mapReferences_id, Failure.renamed_id] at renamed

theorem directCell_congr (same : b.coordinate = a.coordinate) :
    index.directCell path b = index.directCell path a := by
  have paths : path.map Address.coordinate = (path.map Address.coordinate).map id := by
    rw [List.map_id]
  have renamed := (Renames.refl index).directCell paths same
  rwa [Failure.renamed_id] at renamed

theorem exists_directAll {as : List Address}
    (known : ∀ a ∈ as, ∃ x, index.directCell path a = .ok x) :
    ∃ values, index.directAll path as = .ok values := by
  induction as with
  | nil => exact ⟨[], by rw [directAll]⟩
  | cons a as ih =>
    obtain ⟨x, first⟩ := known a List.mem_cons_self
    obtain ⟨values, rest⟩ := ih fun b member => known b (List.mem_cons_of_mem _ member)
    refine ⟨(a.coordinate, x) :: values, ?_⟩
    rw [directAll, first, rest]
    rfl

theorem direct_eq_ok_iff :
    index.direct path e = .ok v ↔
      (∀ r ∈ e.references, ∃ x, index.directCell path r.address = .ok x) ∧
        (e.eval (index.directCell path)).outcome = .ok v := by
  have agree : ∀ values, index.directAll path e.cells = .ok values → ∀ r ∈ e.references,
      ∃ x, index.directCell path r.address = .ok x ∧ values.value r.address = .ok x := by
    intro values found r member
    obtain ⟨a, cell, same⟩ := List.mem_map.mp (Expr.mem_coordinates.mpr ⟨r, member, rfl⟩)
    obtain ⟨b, -, x, same', value, stored⟩ := get?_of_directAll found a cell
    refine ⟨x, ?_, ?_⟩
    · rw [directCell_congr (same.symm.trans same'.symm), value]
    · rw [Memo.value, ← same, stored]
  rw [direct]
  constructor
  · intro h
    obtain ⟨values, found, value⟩ := Except.bind_eq_ok h
    refine ⟨fun r member => (agree values found r member).imp fun x both => both.1, ?_⟩
    rw [Expr.outcome_eval_congr (agree values found)]
    exact value
  · rintro ⟨known, value⟩
    have cells : ∀ a ∈ e.cells, ∃ x, index.directCell path a = .ok x := by
      intro a cell
      obtain ⟨r, member, same⟩ := Expr.mem_coordinates.mp (List.mem_map_of_mem cell)
      rw [directCell_congr same.symm]
      exact known r member
    obtain ⟨values, found⟩ := exists_directAll cells
    rw [found, ← value, Expr.outcome_eval_congr (agree values found)]
    rfl

theorem direct_of_agree (found : index.direct path e = .ok v)
    (agree : ∀ r ∈ e.references, ∀ x, index.directCell path r.address = .ok x →
      index.directCell other r.address = .ok x) : index.direct other e = .ok v := by
  obtain ⟨known, value⟩ := direct_eq_ok_iff.mp found
  have both : ∀ r ∈ e.references, ∃ x, index.directCell other r.address = .ok x ∧
      index.directCell path r.address = .ok x := by
    intro r member
    obtain ⟨x, there⟩ := known r member
    exact ⟨x, agree r member x there, there⟩
  refine direct_eq_ok_iff.mpr ⟨fun r member => (both r member).imp fun x both => both.1, ?_⟩
  rw [Expr.outcome_eval_congr both]
  exact value

theorem not_mem_of_directCell (found : index.directCell path a = .ok x) :
    a.coordinate ∉ path.map Address.coordinate := by
  intro member
  rw [directCell_of_mem member] at found
  cases found

theorem directCell_of_references (found : index.directCell path a = .ok x)
    (edge : index.References a.coordinate c) :
    ∃ b y, b.coordinate = c ∧ index.directCell (path ++ [a]) b = .ok y := by
  obtain ⟨e, here, member⟩ := edge
  rw [directCell_of_not_mem (not_mem_of_directCell found), expr?_eq_some_iff.mp here] at found
  obtain ⟨r, reference, same⟩ := Expr.mem_coordinates.mp member
  obtain ⟨y, value⟩ := (direct_eq_ok_iff.mp found).1 r reference
  exact ⟨r.address, y, same, value⟩

theorem acyclic_of_directCell (found : index.directCell path a = .ok x) :
    ¬ TransGen index.References a.coordinate a.coordinate := by
  -- Along the references the path only gets longer, so it still holds the cell at the end.
  have along : ∀ c, TransGen index.References a.coordinate c → ∃ longer b y, b.coordinate = c ∧
      a ∈ longer ∧ index.directCell longer b = .ok y := by
    intro c walk
    induction walk with
    | single edge =>
      obtain ⟨b, y, same, value⟩ := directCell_of_references found edge
      exact ⟨_, b, y, same, by simp, value⟩
    | tail _ edge ih =>
      obtain ⟨longer, b, y, rfl, member, value⟩ := ih
      obtain ⟨d, z, same, next⟩ := directCell_of_references value edge
      exact ⟨_, d, z, same, List.mem_append_left _ member, next⟩
  intro loop
  obtain ⟨longer, b, y, same, member, value⟩ := along _ loop
  exact not_mem_of_directCell value (same ▸ List.mem_map_of_mem member)

/-- A cell that has a value at the end of one path has it at the end of every path whose cells it
    does not lead to. -/
theorem directCell_of_avoids (found : index.directCell path a = .ok x)
    (avoids : ∀ b ∈ other, ¬ ReflTransGen index.References a.coordinate b.coordinate) :
    index.directCell other a = .ok x := by
  induction size : index.offPath path using Nat.strongRecOn generalizing path other a x with
  | ind n ih =>
    have absent := not_mem_of_directCell found
    have acyclic := acyclic_of_directCell found
    have absent' : a.coordinate ∉ other.map Address.coordinate := by
      intro member
      obtain ⟨b, among, same⟩ := List.mem_map.mp member
      exact avoids b among (same ▸ .refl)
    rw [directCell_of_not_mem absent] at found
    rw [directCell_of_not_mem absent']
    cases look : index.finding a.coordinate with
    | value y notes => rwa [look] at found
    | failure f =>
      rw [look] at found
      cases found
    | formula e =>
      rw [look] at found
      have edge : ∀ r ∈ e.references, index.References a.coordinate r.address.coordinate :=
        fun r member => (references_iff look).mpr (Expr.mem_coordinates.mpr ⟨r, member, rfl⟩)
      refine direct_of_agree found fun r member y there => ?_
      refine ih _ (size ▸ offPath_lt look absent) there ?_ rfl
      intro b among reached
      rcases List.mem_append.mp among with among | last
      · exact avoids b among (.head (edge r member) reached)
      · rw [List.mem_singleton.mp last] at reached
        exact acyclic (TransGen.head' (edge r member) reached)

/-- Where it stands, a formula has the value that it has anywhere: a cell with a value that it
    references does not lead back to it. -/
theorem direct_cell_eq_ok_iff (look : index.finding k.coordinate = .formula e) :
    index.direct [k] e = .ok v ↔ index.direct [] e = .ok v := by
  have edge : ∀ r ∈ e.references, index.References k.coordinate r.address.coordinate :=
    fun r member => (references_iff look).mpr (Expr.mem_coordinates.mpr ⟨r, member, rfl⟩)
  constructor
  · exact fun found => direct_of_agree found fun r _ x there => directCell_of_avoids there nofun
  · refine fun found => direct_of_agree found fun r member x there => ?_
    refine directCell_of_avoids there fun b among reached => ?_
    rw [List.mem_singleton.mp among] at reached
    exact acyclic_of_directCell there (TransGen.tail' reached (edge r member))

theorem direct_ref {r : Reference}
    (double : ∀ x, index.directCell path r.address = .ok x → x.IsFiniteDouble) :
    index.direct path (.ref r) = index.directCell path r.address := by
  cases value : index.directCell path r.address with
  | error f =>
    have cells : (Expr.ref r).cells = [r.address] := rfl
    rw [direct, cells, directAll, value]
    rfl
  | ok x =>
    refine direct_eq_ok_iff.mpr ⟨fun q member => ?_, ?_⟩
    · rw [List.mem_singleton.mp member]
      exact ⟨x, value⟩
    · simp only [Expr.eval, value, Except.bind, (double x value).toChecked]

theorem isFiniteDouble_of_direct (none : ¬ e.HasEmptySum) (found : index.direct path e = .ok x) :
    x.IsFiniteDouble := Expr.isFiniteDouble_of_eval none (direct_eq_ok_iff.mp found).2

/-- The value of a cell by itself: the one that its formula has for a resolver which stands there
    and has resolved nothing, or else that of its literal. -/
def ownValue (index : CellIndex) (a : Address) : Except Failure Number :=
  match index.get? a.coordinate with
  | none => .ok (.double 0.0)
  | some content =>
    if content.isFormula then
      ((Resolver.ofIndex index (some a) none).resolve (content.formula.getD "")).outcome
    else .ok (.double (Literal.value (content.value.getD "")).1)

theorem ownValue_eq (index : CellIndex) (a : Address) :
    index.ownValue a = index.directCell [] a := by
  rw [directCell_of_not_mem List.not_mem_nil]
  unfold ownValue
  cases holds : index.get? a.coordinate with
  | none => rw [finding_of_none holds]
  | some content =>
    dsimp only
    cases formula : content.body? with
    | none =>
      rw [finding_of_literal holds formula, CellContent.isFormula, formula]
      rfl
    | some body =>
      obtain ⟨text, written, starts⟩ := Option.bind_eq_some_iff.mp formula
      rw [finding_of_body? holds formula, CellContent.isFormula, formula, Option.isSome_some,
        if_pos rfl, written, Option.getD_some, Resolver.resolve_ofIndex starts]
      cases Expr.parse body with
      | error f => rfl
      | ok e => rfl

end CellIndex

namespace Resolver

variable {table : CellTable} {name : Option CellName} {r : Resolver} {depth : Option Int}

/-- Where it stands, a formula has a value just if it can be read, each of its references has a
    value by itself, and the expression has the value with those values. From elsewhere a reference
    to its cell comes to what it comes to, with the same cycle if it leads to one. -/
theorem resolve_eq_ok_iff_ownValue {named : CellName} {k : Address} {content : CellContent}
    {text body : String} (fresh : ofTable table (some named) none = .ok r)
    (stands : named.toAddress = .ok k) (holds : r.index.get? k.coordinate = some content)
    (formula : content.formula = some text) (starts : formulaBody? text = some body) :
    (∀ v, (r.resolve text).outcome = .ok v ↔
      ∃ e, Expr.parse body = .ok e ∧
        (∀ x ∈ e.references, ∃ y, r.index.ownValue x.address = .ok y) ∧
        (e.eval r.index.ownValue).outcome = .ok v) ∧
    ∃ bare, ofTable table none none = .ok bare ∧
      ∀ spelled a, Address.parse spelled = .ok a → a.coordinate = k.coordinate →
        (bare.resolve ("=" ++ spelled)).outcome = (r.resolve text).outcome := by
  have own : r.index.ownValue = r.index.directCell [] := funext r.index.ownValue_eq
  have written : content.body? = some body := by rw [CellContent.body?, formula]; exact starts
  have look := CellIndex.finding_of_body? holds written
  have outcome : (r.resolve text).outcome = (Expr.parse body).bind (r.index.direct [k]) := by
    have again := ofTable_some (index_of_ofTable fresh) stands none
    rw [Except.ok.inj (fresh.symm.trans again)]
    exact resolve_ofIndex starts
  refine ⟨fun v => ?_, _, ofTable_none (index_of_ofTable fresh) none,
    fun spelled a valid same => ?_⟩
  · rw [outcome, own]
    constructor
    · intro h
      obtain ⟨e, parsed, value⟩ := Except.bind_eq_ok h
      rw [parsed] at look
      exact ⟨e, parsed, CellIndex.direct_eq_ok_iff.mp
        ((CellIndex.direct_cell_eq_ok_iff look).mp value)⟩
    · rintro ⟨e, parsed, separate⟩
      rw [parsed] at look ⊢
      exact (CellIndex.direct_cell_eq_ok_iff look).mpr (CellIndex.direct_eq_ok_iff.mpr separate)
  · have starts' : formulaBody? ("=" ++ spelled) = some spelled := by
      rw [formulaBody?_eq_some_iff, ← String.toList_inj, String.toList_append]
      exact String.toList_ofList.symm
    have cell : r.index.directCell [] a = (Expr.parse body).bind (r.index.direct [k]) := by
      rw [CellIndex.directCell_of_not_mem List.not_mem_nil, same, look]
      cases Expr.parse body with
      | error f => rfl
      | ok e => exact CellIndex.direct_congr (congrArg (fun c => [c]) same)
    rw [resolve_ofIndex starts', Expr.parse_address valid, outcome, ← cell]
    refine CellIndex.direct_ref fun x found => ?_
    obtain ⟨e, parsed, value⟩ := Except.bind_eq_ok (cell.symm.trans found)
    exact CellIndex.isFiniteDouble_of_direct (Expr.not_hasEmptySum_of_parse parsed) value

theorem resolve_eq_ok_iff_ownValue_of_loop :
    ∃ r, ofTable [(.text "A1", .text "=B1+1"), (.text "B1", .text "=A1")] (some (.text "$A1"))
        none = .ok r ∧
      (∀ v, (r.resolve "=B1+1").outcome = .ok v ↔
        ∃ e, Expr.parse "B1+1" = .ok e ∧
          (∀ x ∈ e.references, ∃ y, r.index.ownValue x.address = .ok y) ∧
          (e.eval r.index.ownValue).outcome = .ok v) ∧
      ∃ bare, ofTable [(.text "A1", .text "=B1+1"), (.text "B1", .text "=A1")] none none =
          .ok bare ∧
        ∀ spelled a, Address.parse spelled = .ok a → a.coordinate = ⟨0, 0⟩ →
          (bare.resolve ("=" ++ spelled)).outcome = (r.resolve "=B1+1").outcome := by
  have fresh : ofTable [(.text "A1", .text "=B1+1"), (.text "B1", .text "=A1")]
      (some (.text "$A1")) none = .ok (ofIndex [(⟨0, 0⟩, { formula := some "=B1+1" }),
        (⟨1, 0⟩, { formula := some "=A1" })] (some ⟨0, 0, true, false⟩) none) := by rfl
  have stands : CellName.toAddress (.text "$A1") = .ok ⟨0, 0, true, false⟩ := by rfl
  have starts : formulaBody? "=B1+1" = some "B1+1" := by rfl
  exact ⟨_, fresh, resolve_eq_ok_iff_ownValue fresh stands rfl rfl starts⟩

end Resolver

end Spreadsheet
