import Spreadsheet.Proofs.Decimal.Nearest
import Spreadsheet.Proofs.Formula.Double
import Spreadsheet.Proofs.Resolution.Cycle
import Spreadsheet.Proofs.Resolution.History

namespace Spreadsheet

variable {index : CellIndex} {current : Option Address} {memo : Memo} {c : Coordinate} {x : Number}
  {notes : List Note} {table : CellTable} {name : Option CellName} {depth : Option Int}

theorem Literal.isFinite_value (text : String) : (Literal.value text).1.isFinite = true := by
  have zero : (0.0 : Float).isFinite = true := rfl
  simp only [value]
  split
  · exact zero
  · split
    · exact zero
    · split
      · rename_i finite
        dsimp only
        split
        · exact Double.isFinite_percent finite
        · exact finite
      · exact zero

namespace CellIndex

theorem isFiniteDouble_of_finding (found : index.finding c = .value x notes) :
    x.IsFiniteDouble := by
  unfold finding at found
  split at found
  · cases found
    exact ⟨_, rfl, rfl⟩
  · split at found
    · cases found
      exact ⟨_, rfl, Literal.isFinite_value _⟩
    · split at found <;> cases found

theorem Gives.isFiniteDouble (gives : index.Gives memo c x) : x.IsFiniteDouble := by
  cases gives with
  | own found => exact isFiniteDouble_of_finding found
  | formula found _ value =>
    obtain ⟨body, parsed⟩ := exists_parse_of_finding found
    exact Expr.isFiniteDouble_of_eval (Expr.not_hasEmptySum_of_parse parsed) value

/-- The values that a resolution keeps are finite doubles. The induction is on how they came into the
    memo: each one is that of a literal, or of an expression over the values before it. -/
theorem Sound.isFiniteDouble (sound : index.Sound current memo) :
    ∀ entry ∈ memo, entry.2.IsFiniteDouble := by
  induction sound with
  | nil => exact nofun
  | cons _ _ _ gives ih => exact List.forall_mem_cons.mpr ⟨gives.isFiniteDouble, ih⟩

end CellIndex

namespace Machine

variable {s : Setting} {m : Machine} {outcome : Except Failure Number}

theorem Ends.isFiniteDouble (ends : Ends s m outcome) (none : ¬ m.root.body.HasEmptySum)
    (value : outcome = .ok x) : x.IsFiniteDouble := by
  cases ends with
  | finished => exact Expr.isFiniteDouble_of_eval none value
  | failed | circular | unreadable | tooDeep => cases value

theorem Ends.keepsFinite (ends : Ends s m outcome) : Fails Failure.KeepsFinite outcome := by
  cases ends with
  | finished => exact (value_failsLocally _ _).keepsFinite
  | failed _ value => exact .error ((value_failsLocally _ _).keepsFinite _ value)
  | unreadable _ _ found _ => exact .error (CellIndex.finding_failure_isLocal found).keepsFinite
  | circular => exact .error nofun
  | @tooDeep a as limit _ _ _ _ =>
    have deep : (Failure.tooDeep limit a.coordinate).KeepsFinite := nofun
    exact .error (deep.naming limit)

end Machine

theorem CellName.toAddress_failsLocally (name : CellName) : FailsLocally name.toAddress := by
  cases name with
  | text text =>
    refine (Address.parse_fails text).mono fun f failure => ?_
    rcases failure with address | long
    · cases f with
      | circular | tooDeep | unwritable | notFinite => cases address
      | _ => trivial
    · exact long.ofLongRow.isLocal
  | address a => exact .ok a

theorem CellIndex.repeated_keepsFinite (name : CellName) : (repeated name).KeepsFinite := by
  cases name with
  | text text => exact nofun
  | address a =>
    have again : (Failure.repeatedCell (.address a)).KeepsFinite := nofun
    exact (again.naming a.row).naming a.column

theorem RawCell.toContent_keepsFinite (raw : RawCell) : Fails Failure.KeepsFinite raw.toContent := by
  cases raw with
  | integer n =>
    rw [toContent]
    split
    · exact .ok _
    · exact .error nofun
  | _ => exact .ok _

theorem CellIndex.add_keepsFinite (index : CellIndex) (name : CellName) (raw : RawCell) :
    Fails Failure.KeepsFinite (index.add name raw) := by
  unfold add
  split
  · rename_i failure outcome
    exact .error (name.toAddress_failsLocally.keepsFinite _ outcome)
  · split
    · exact .error (repeated_keepsFinite name)
    · exact raw.toContent_keepsFinite.map _

theorem CellIndex.addAll_keepsFinite (index : CellIndex) (table : CellTable) :
    Fails Failure.KeepsFinite (index.addAll table) := by
  induction table generalizing index with
  | nil => exact .ok _
  | cons cell table ih => exact (index.add_keepsFinite cell.1 cell.2).bind fun next => ih next

namespace Resolver

variable {r used : Resolver}

theorem ofTable_keepsFinite (table : CellTable) (name : Option CellName) (depth : Option Int) :
    Fails Failure.KeepsFinite (ofTable table name depth) := by
  unfold ofTable
  split
  · rename_i failure outcome
    exact .error (CellIndex.addAll_keepsFinite [] table _ outcome)
  · cases name with
    | none => exact .ok _
    | some name => exact name.toAddress_failsLocally.keepsFinite.map _

theorem isFiniteDouble_of_resolve (sound : r.index.Sound r.current r.memo) {text : String}
    (value : (r.resolve text).outcome = .ok x) : x.IsFiniteDouble := by
  rcases r.resolve_cases text with ⟨-, same⟩ | ⟨body, -, ⟨f, -, same⟩ | ⟨e, parsed, same⟩⟩
  · rw [same] at value
    cases value
    exact ⟨_, rfl, Literal.isFinite_value text⟩
  · rw [same] at value
    cases value
  · rw [same] at value
    obtain ⟨last, -, root, ends, -⟩ := resolveExpr_spec sound e
    refine ends.isFiniteDouble ?_ value
    rw [root]
    exact Expr.not_hasEmptySum_of_parse parsed

theorem resolve_keepsFinite (sound : r.index.Sound r.current r.memo) (text : String) :
    Fails Failure.KeepsFinite (r.resolve text).outcome := by
  rcases r.resolve_cases text with ⟨-, same⟩ | ⟨body, -, ⟨f, parsed, same⟩ | ⟨e, -, same⟩⟩
  · rw [same]
    exact .ok _
  · rw [same]
    exact .error (Expr.parse_failsLocally body f parsed).keepsFinite
  · obtain ⟨last, -, -, ends, -⟩ := resolveExpr_spec sound e
    rw [same]
    exact ends.keepsFinite

end Resolver

theorem resolveText_finite (text : String) (table : CellTable) (name : Option CellName)
    (depth : Option Int) :
    (∀ x, (resolveText text table name depth).1 = .ok x → x.IsFiniteDouble) ∧
      Fails Failure.KeepsFinite (resolveText text table name depth).1 := by
  unfold resolveText
  split
  · rename_i failure outcome
    exact ⟨nofun, .error (Resolver.ofTable_keepsFinite table name depth _ outcome)⟩
  · rename_i r fresh
    have sound := Resolver.sound_of_ofTable fresh
    exact ⟨fun x value => Resolver.isFiniteDouble_of_resolve sound value,
      Resolver.resolve_keepsFinite sound text⟩

theorem displayNumber_failsLocally (double : x.IsFiniteDouble) (places : Int) :
    FailsLocally (displayNumber x places) := by
  obtain ⟨nearest, rfl, finite⟩ := double
  simp only [displayNumber, Number.toFloat, Except.bind, finite, Bool.not_true, Bool.false_eq_true,
    if_false]
  split
  · exact .error trivial
  · split
    · exact .error trivial
    · split
      · exact .error trivial
      · split
        · exact .error trivial
        · exact .ok _

theorem displayText_ne_notFinite (text : String) (table : CellTable) (name : Option CellName)
    (depth : Option Int) (places : Int) (y : Float) :
    displayText text table name depth places ≠ .error (.notFinite y) := by
  obtain ⟨finite, keeps⟩ := resolveText_finite text table name depth
  intro same
  unfold displayText at same
  cases outcome : (resolveText text table name depth).1 with
  | ok x =>
    rw [outcome] at same
    exact (displayNumber_failsLocally (finite x outcome) places).keepsFinite _ same y rfl
  | error f =>
    rw [outcome] at same
    cases same
    exact keeps _ outcome y rfl

namespace Resolver

variable {r : Resolver}

/-- Only finite doubles circulate in a resolver: whatever it was asked, the values that it keeps and
    the value that a text comes to are finite doubles, so that none is refused for display. The value
    of an expression, with any constants and operators and whatever values its references have, is a
    finite double or a whole number with a finite double near to it. Without a sum of nothing it is a
    finite double. -/
theorem isFiniteDouble_after_requests (fresh : ofTable table name depth = .ok r)
    (requests : List Request) :
    let used := requests.foldl serve r
    (∀ entry ∈ used.memo, entry.2.IsFiniteDouble) ∧
      (∀ text x, (used.resolve text).outcome = .ok x → x.IsFiniteDouble) ∧
      (∀ text table name depth places y,
        displayText text table name depth places ≠ .error (.notFinite y)) ∧
      ∀ (e : Expr) (value : Address → Except Failure Number) (x : Number),
        (e.eval value).outcome = .ok x → x.IsFinite ∧ (¬ e.HasEmptySum → x.IsFiniteDouble) := by
  intro used
  have start : r.Continues r := ⟨rfl, rfl, sound_of_ofTable fresh⟩
  have continues : r.Continues used := start.serveAll requests
  exact ⟨continues.sound.isFiniteDouble, fun text x => isFiniteDouble_of_resolve continues.sound,
    displayText_ne_notFinite, fun e value x found =>
      ⟨Expr.isFinite_of_eval e found, fun none => Expr.isFiniteDouble_of_eval none found⟩⟩

theorem isFiniteDouble_after_requests_of_overflow :
    let table : CellTable := [(.text "A1", .text "1e999%"), (.text "B1", .text "=-A1%+1e308*10")]
    let requests : List Request := [.resolve "=B1", .limit (some 5), .resolve "=-A1"]
    ∃ r, ofTable table (some (.text "C1")) none = .ok r ∧
      let used := requests.foldl serve r
      (∀ entry ∈ used.memo, entry.2.IsFiniteDouble) ∧
        (∀ text x, (used.resolve text).outcome = .ok x → x.IsFiniteDouble) ∧
        (∀ text table name depth places y,
          displayText text table name depth places ≠ .error (.notFinite y)) ∧
        ∀ (e : Expr) (value : Address → Except Failure Number) (x : Number),
          (e.eval value).outcome = .ok x → x.IsFinite ∧ (¬ e.HasEmptySum → x.IsFiniteDouble) := by
  intro table requests
  have fresh : ofTable table (some (.text "C1")) none =
      .ok (ofIndex [(⟨0, 0⟩, { value := some "1e999%" }),
        (⟨1, 0⟩, { formula := some "=-A1%+1e308*10" })] (some ⟨2, 0, false, false⟩) none) := rfl
  exact ⟨_, fresh, isFiniteDouble_after_requests fresh requests⟩

end Resolver

/-- The sum of nothing is a whole zero, also after a sign, and no double. From it come whole numbers
    that are the value of no double. -/
theorem Expr.eval_emptySum :
    let zero := call "SUM" []
    let one := binary .power zero zero
    let five := binary .add (binary .add (binary .add (binary .add one one) one) one) one
    let large := binary .power (binary .power five five) five
    let outcome (e : Expr) := (e.eval fun a => .error (.unresolved a)).outcome
    outcome (unary .minus zero) = .ok (.whole 0) ∧ ¬ (Number.whole 0).IsFiniteDouble ∧
      outcome large = .ok (.whole 298023223876953125) ∧
      ∀ x : Float, x.isFinite = true → (Dyadic.ofFloat x).value ≠ 298023223876953125 := by
  refine ⟨rfl, nofun, rfl, fun x finite same => ?_⟩
  have grid : Double.Representable (298023223876953125 : ℤ) := by
    have value := Double.representable_value finite
    rw [same] at value
    exact_mod_cast value
  exact absurd (grid.abs_lt_of_odd rfl) (by decide)

end Spreadsheet
