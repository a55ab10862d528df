import Spreadsheet.Proofs.Cell.Table
import Spreadsheet.Proofs.Formula.Layout
import Spreadsheet.Proofs.Resolution.Agreement
import Spreadsheet.Proofs.Resolution.Outcome

namespace Spreadsheet

open CellTable (cell?)

variable {table table' : CellTable} {index index' : CellIndex} {key : CellName} {raw : RawCell}
  {a : Address} {c : Coordinate}

theorem CellIndex.finding_congr (same : index'.get? c = index.get? c) :
    index'.finding c = index.finding c := by
  unfold finding
  rw [same]

namespace CellTable

theorem mem_of_mem_set {entry : CellName × RawCell} (member : entry ∈ table.set key raw) :
    entry = (key, raw) ∨ entry ∈ table := by
  unfold set at member
  split at member
  · obtain ⟨old, among, same⟩ := List.mem_map.mp member
    split at same
    · exact .inl same.symm
    · exact .inr (same ▸ among)
  · rcases List.mem_append.mp member with among | last
    · exact .inr among
    · exact .inl (List.mem_singleton.mp last)

theorem mem_set_of_ne {entry : CellName × RawCell} (member : entry ∈ table)
    (other : entry.1 ≠ key) : entry ∈ table.set key raw := by
  unfold set
  split
  · exact List.mem_map.mpr ⟨entry, member, by simp [other]⟩
  · exact List.mem_append_left _ member

end CellTable

namespace CellIndex

theorem get?_set (indexed : ofTable table = .ok index)
    (indexed' : ofTable (table.set key raw) = .ok index') (named : key.toAddress = .ok a)
    (other : c ≠ a.coordinate) : index'.get? c = index.get? c := by
  -- No entry of the other cell has the name whose entry changes.
  have renamed : ∀ entry content, cell? entry = .ok (c, content) → entry.1 ≠ key := by
    rintro entry content found same
    obtain ⟨b, valid, -, cell⟩ := CellTable.cell?_eq_ok.mp found
    rw [same, named] at valid
    cases valid
    exact other cell
  refine Option.ext fun content => ?_
  rw [get?_ofTable indexed, get?_ofTable indexed']
  constructor
  · rintro ⟨entry, member, found⟩
    rcases CellTable.mem_of_mem_set member with rfl | before
    · exact absurd rfl (renamed _ content found)
    · exact ⟨entry, before, found⟩
  · rintro ⟨entry, member, found⟩
    exact ⟨entry, CellTable.mem_set_of_ne member (renamed entry content found), found⟩

theorem exists_cell?_texts_iff {key text : String} :
    (∃ cell, cell? (.text key, .text text) = .ok cell) ↔ ∃ a, Address.parse key = .ok a := by
  constructor
  · rintro ⟨cell, found⟩
    obtain ⟨a, named, -⟩ := CellTable.cell?_eq_ok.mp found
    exact ⟨a, named⟩
  · rintro ⟨a, named⟩
    exact ⟨(a.coordinate, _), CellTable.cell?_eq_ok.mpr ⟨a, named, rfl, rfl⟩⟩

theorem exists_ofTable_ofTexts_iff {cells cells' : List (String × String)}
    (perm : cells'.Perm cells) :
    (∃ index, ofTable (.ofTexts cells') = .ok index) ↔
      (∀ cell ∈ cells, ∃ a, Address.parse cell.1 = .ok a) ∧
        cells.Pairwise fun x y => ∀ a b, Address.parse x.1 = .ok a → Address.parse y.1 = .ok b →
          a.coordinate ≠ b.coordinate := by
  rw [exists_ofTable_iff, CellTable.ofTexts, List.forall_mem_map, List.pairwise_map]
  simp only [exists_cell?_texts_iff]
  refine and_congr ⟨fun valid cell member => valid cell (perm.mem_iff.mpr member),
    fun valid cell member => valid cell (perm.mem_iff.mp member)⟩ (perm.pairwise_iff ?_)
  exact fun apart a b here there same => apart b a there here same.symm

end CellIndex

namespace Resolver

variable {name : Option CellName} {r r' : Resolver} {depth : Option Int} {text : String}

theorem ofTable_of_index (fresh : ofTable table name depth = .ok r)
    (indexed : CellIndex.ofTable table' = .ok index') :
    ofTable table' name depth = .ok (ofIndex index' r.current depth) := by
  cases name with
  | none =>
    have first := ofTable_none (index_of_ofTable fresh) depth
    rw [ofTable_none indexed, Except.ok.inj (fresh.symm.trans first)]
    rfl
  | some named =>
    obtain ⟨a, stands, same⟩ := exists_toAddress fresh
    rw [ofTable_some indexed stands, same]
    rfl

theorem resolve_of_get? (fresh : ofTable table name depth = .ok r)
    (agree : ∀ c, r.index.LeadsTo text c → index'.get? c = r.index.get? c) :
    ((ofIndex index' r.current depth).resolve text).outcome = (r.resolve text).outcome := by
  have same : (r.resolve text).outcome =
      ((ofIndex r.index r.current depth).resolve text).outcome :=
    congrArg (fun r : Resolver => (r.resolve text).outcome) (eq_ofIndex fresh)
  rw [same]
  exact resolve_admitted (fun c led => CellIndex.finding_congr (agree c led)) (fun _ => id)
    fun _ => rfl

/-- An outcome depends only on what stands in the cells that a formula leads to: not on the other
    cells of the table, not on the order of its entries, and not on how they name their cells. Whether
    a table of texts is indexed does not depend on the order either. -/
theorem resolve_local (fresh : ofTable table name depth = .ok r) (text : String) :
    (∀ table' r', ofTable table' name depth = .ok r' →
      (∀ c, r.index.LeadsTo text c → r'.index.get? c = r.index.get? c) →
      (r'.resolve text).outcome = (r.resolve text).outcome) ∧
    (∀ table' : CellTable, (table'.map cell?).Perm (table.map cell?) →
      ∃ r', ofTable table' name depth = .ok r' ∧
        (r'.resolve text).outcome = (r.resolve text).outcome) ∧
    (∀ key a raw r', key.toAddress = .ok a → ¬ r.index.LeadsTo text a.coordinate →
      ofTable (table.set key raw) name depth = .ok r' →
      (r'.resolve text).outcome = (r.resolve text).outcome) ∧
    ∀ cells cells' : List (String × String), cells'.Perm cells →
      ((∃ index, CellIndex.ofTable (.ofTexts cells') = .ok index) ↔
        (∀ cell ∈ cells, ∃ a, Address.parse cell.1 = .ok a) ∧
          cells.Pairwise fun x y => ∀ a b, Address.parse x.1 = .ok a →
            Address.parse y.1 = .ok b → a.coordinate ≠ b.coordinate) := by
  have indexed := index_of_ofTable fresh
  have anew : ∀ table' r', ofTable table' name depth = .ok r' →
      r' = ofIndex r'.index r.current depth := by
    intro table' r' fresh'
    have again := ofTable_of_index fresh (index_of_ofTable fresh')
    exact Except.ok.inj (fresh'.symm.trans again)
  refine ⟨fun table' r' fresh' agree => ?_, fun table' perm => ?_,
    fun key a raw r' named unled fresh' => ?_, fun _ _ => CellIndex.exists_ofTable_ofTexts_iff⟩
  · rw [anew table' r' fresh']
    exact resolve_of_get? fresh agree
  · obtain ⟨index', indexed'⟩ := CellIndex.exists_ofTable_of_perm indexed perm
    refine ⟨_, ofTable_of_index fresh indexed', resolve_of_get? fresh fun c _ => ?_⟩
    exact CellIndex.get?_of_perm indexed indexed' perm
  · rw [anew _ r' fresh']
    refine resolve_of_get? fresh fun c led => ?_
    exact CellIndex.get?_set indexed (index_of_ofTable fresh') named fun same => unled (same ▸ led)

theorem resolve_local_of_loop :
    let table : CellTable := [(.text "A1", .text "=B1"), (.text "B1", .text "=A1"),
      (.text "C1", .text "=A1")]
    let respelled : CellTable := [(.text "$b$01", .text "=A1"), (.text "a1", .text "=B1"),
      (.text "C1", .text "=A1")]
    ∃ r r₁ r₂, ofTable table (some (.text "D1")) none = .ok r ∧
      ofTable respelled (some (.text "D1")) none = .ok r₁ ∧
      ¬ r.index.LeadsTo "=B1" ⟨2, 0⟩ ∧
      ofTable (table.set (.text "C1") (.text "=(")) (some (.text "D1")) none = .ok r₂ ∧
      (r₁.resolve "=B1").outcome = (r.resolve "=B1").outcome ∧
      (r₂.resolve "=B1").outcome = (r.resolve "=B1").outcome := by
  intro table respelled
  let index : CellIndex := [(⟨0, 0⟩, { formula := some "=B1" }),
    (⟨1, 0⟩, { formula := some "=A1" }), (⟨2, 0⟩, { formula := some "=A1" })]
  have fresh : ofTable table (some (.text "D1")) none =
      .ok (ofIndex index (some ⟨3, 0, false, false⟩) none) := rfl
  have broken : ofTable (table.set (.text "C1") (.text "=(")) (some (.text "D1")) none =
      .ok (ofIndex [(⟨0, 0⟩, { formula := some "=B1" }), (⟨1, 0⟩, { formula := some "=A1" }),
        (⟨2, 0⟩, { formula := some "=(" })] (some ⟨3, 0, false, false⟩) none) := rfl
  have parsed : Expr.parse "B1" = .ok (.ref ⟨⟨1, 0, false, false⟩, "B1"⟩) := Expr.parse_address rfl
  have first : index.expr? ⟨0, 0⟩ = some (.ref ⟨⟨1, 0, false, false⟩, "B1"⟩) :=
    congrArg Except.toOption parsed
  have second : index.expr? ⟨1, 0⟩ = some (.ref ⟨⟨0, 0, false, false⟩, "A1"⟩) :=
    congrArg Except.toOption (Expr.parse_address rfl)
  have loop : ∀ c, index.Reachable (.ref ⟨⟨1, 0, false, false⟩, "B1"⟩) c →
      c = ⟨1, 0⟩ ∨ c = ⟨0, 0⟩ := by
    intro c reached
    induction reached with
    | direct member => exact .inl (List.mem_singleton.mp member)
    | through _ edge ih =>
      obtain ⟨e, here, member⟩ := edge
      rcases ih with rfl | rfl
      · cases second.symm.trans here
        exact .inr (List.mem_singleton.mp member)
      · cases first.symm.trans here
        exact .inl (List.mem_singleton.mp member)
  have unled : ¬ index.LeadsTo "=B1" ⟨2, 0⟩ := by
    intro led
    have reached := (CellIndex.leadsTo_iff (by rfl) parsed).mp led
    rcases loop _ reached with same | same <;> cases same
  obtain ⟨-, permuted, changed, -⟩ := resolve_local fresh "=B1"
  obtain ⟨r₁, fresh₁, same₁⟩ := permuted respelled (.swap _ _ _)
  have same₂ := changed (.text "C1") ⟨2, 0, false, false⟩ (.text "=(") _ rfl unled broken
  exact ⟨_, r₁, _, fresh, fresh₁, unled, broken, same₁, same₂⟩

end Resolver

end Spreadsheet
