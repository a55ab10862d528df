import Spreadsheet.Proofs.Cell.Relocation
import Spreadsheet.Proofs.Resolution.Refinement

namespace Spreadsheet

open Fill

variable {d : Shift}

namespace Resolver

variable {table : CellTable} {name : Option CellName} {r : Resolver}

theorem exists_current (fresh : ofTable table name none = .ok r) (stays : ∀ n ∈ name, n.Stays d)
    (index : CellIndex) {table' : CellTable} (indexed : CellIndex.ofTable table' = .ok index) :
    ∃ current, ofTable table' (name.map (CellName.moved d)) none =
        .ok (ofIndex index current none) ∧
      current.toList.map Address.coordinate =
        (r.current.toList.map Address.coordinate).map d.cell := by
  cases name with
  | none =>
    refine ⟨none, ofTable_none indexed none, ?_⟩
    rw [Except.ok.inj (fresh.symm.trans (ofTable_none (index_of_ofTable fresh) none))]
    rfl
  | some n =>
    obtain ⟨a, named, same⟩ := exists_toAddress fresh
    have carried := CellName.toAddress_moved (stays n rfl) named
    refine ⟨some (d.carried a), ofTable_some indexed carried none, ?_⟩
    rw [same]
    rfl

/-- A formula in a table that moves as a whole comes to what it came to before, and a cycle to the
    moved cycle. -/
theorem resolve_moved {text : String} (fresh : ofTable table name none = .ok r)
    (keys : ∀ entry ∈ table, entry.1.Stays d) (standing : ∀ n ∈ name, n.Stays d)
    (contents : ∀ entry ∈ table, entry.2.Relocates d) (formula : d.Relocates text) :
    ∃ table' r' text', table.moved d = .ok table' ∧
      ofTable table' (name.map (CellName.moved d)) none = .ok r' ∧ shift d text = .ok text' ∧
      (r'.resolve text').outcome =
        (r.resolve text).outcome.mapError (Failure.renamed d.cell) := by
  obtain ⟨table', moved, entries⟩ := CellTable.exists_moved contents
  obtain ⟨index', indexed, moves⟩ :=
    CellIndex.Moves.addAll (.nil : CellIndex.Moves d [] []) keys entries (index_of_ofTable fresh)
  obtain ⟨current, fresh', paths⟩ := exists_current fresh standing index' indexed
  obtain ⟨body, e, text', body', starts, parsed, stay, shifted, starts', parsed'⟩ := formula.shift
  refine ⟨table', _, text', moved, fresh', shifted, ?_⟩
  rw [eq_ofIndex fresh, resolve_ofIndex starts, resolve_ofIndex starts', parsed, parsed']
  exact moves.renames.direct paths stay

theorem resolve_moved_of_loop :
    let table : CellTable := [(.text "A1", .text "=-B1"), (.text "$B$1", .text "=A1")]
    let d : Shift := ⟨2, 1⟩
    ∃ r, ofTable table none none = .ok r ∧ (∀ entry ∈ table, entry.1.Stays d) ∧
      (∀ n ∈ (none : Option CellName), n.Stays d) ∧
      (∀ entry ∈ table, entry.2.Relocates d) ∧ d.Relocates "=A1" ∧
      ∃ table' r' text', table.moved d = .ok table' ∧ ofTable table' none none = .ok r' ∧
        shift d "=A1" = .ok text' ∧
        (r'.resolve text').outcome =
          (r.resolve "=A1").outcome.mapError (Failure.renamed d.cell) := by
  intro table d
  have fresh : ofTable table none none = .ok (ofIndex [(⟨0, 0⟩, { formula := some "=-B1" }),
      (⟨1, 0⟩, { formula := some "=A1" })] none none) := by rfl
  have stays : ∀ t a, Address.parse t = .ok a → (d.carried a).InGrid → (d.carried a).row < 9 →
      (CellName.text t).Stays d := by
    intro t a parsed grid small b named
    cases parsed.symm.trans named
    exact Shift.admits_of_lt grid small
  have keys : ∀ entry ∈ table, entry.1.Stays d := by
    refine List.forall_mem_cons.mpr ⟨?_, List.forall_mem_cons.mpr ⟨?_, List.forall_mem_nil _⟩⟩
    · exact stays "A1" ⟨0, 0, false, false⟩ rfl (by decide) (by decide)
    · exact stays "$B$1" ⟨1, 0, true, true⟩ rfl (by decide) (by decide)
  have first : d.Relocates "=-B1" := by
    have parsed : Expr.parse "-B1" =
        .ok (.unary .minus (.ref ⟨⟨1, 0, false, false⟩, "B1"⟩)) := by cbv
    refine ⟨"-B1", _, rfl, parsed, fun r member => ?_⟩
    cases List.mem_singleton.mp member
    exact ⟨rfl, rfl, Shift.admits_of_lt (by decide) (by decide)⟩
  have second : d.Relocates "=A1" := by
    have parsed : Expr.parse "A1" = .ok (.ref ⟨⟨0, 0, false, false⟩, "A1"⟩) :=
      Expr.parse_address rfl
    refine ⟨"A1", _, rfl, parsed, fun r member => ?_⟩
    cases List.mem_singleton.mp member
    exact ⟨rfl, rfl, Shift.admits_of_lt (by decide) (by decide)⟩
  have contents : ∀ entry ∈ table, entry.2.Relocates d := by
    have whole : ∀ t body, formulaBody? t = some body → d.Relocates t →
        (RawCell.text t).Relocates d := by
      intro t body starts relocates content held text written _
      cases (RawCell.toContent_of_formula starts).symm.trans held
      cases written
      exact relocates
    exact List.forall_mem_cons.mpr ⟨whole _ _ rfl first,
      List.forall_mem_cons.mpr ⟨whole _ _ rfl second, List.forall_mem_nil _⟩⟩
  have standing : ∀ n ∈ (none : Option CellName), n.Stays d := by
    intro n member
    cases member
  exact ⟨_, fresh, keys, standing, contents, second,
    resolve_moved fresh keys standing contents second⟩

end Resolver

end Spreadsheet
