import Spreadsheet.Cell.Index
import Spreadsheet.Proofs.Fill.Parsing
import Spreadsheet.Proofs.Resolution.Renaming

namespace Spreadsheet

namespace Fill.Shift

variable {d : Shift} {a : Address} {text : String}

def cell (d : Shift) (c : Coordinate) : Coordinate := ⟨c.column + d.columns, c.row + d.rows⟩

def carried (d : Shift) (a : Address) : Address :=
  { a with column := a.column + d.columns, row := a.row + d.rows }

/-- The moved address is in the grid, and its row number can be written. -/
def Admits (d : Shift) (a : Address) : Prop := (d.carried a).InGrid ∧ (d.carried a).RowFits

/-- A formula without absolute references, whose references all stay in the grid. -/
def Relocates (d : Shift) (text : String) : Prop :=
  ∃ body e, formulaBody? text = some body ∧ Expr.parse body = .ok e ∧
    ∀ r ∈ e.references, r.address.absoluteColumn = false ∧ r.address.absoluteRow = false ∧
      d.Admits r.address

theorem cell_injective (d : Shift) : Function.Injective d.cell := by
  intro c c' same
  obtain ⟨column, row⟩ := c
  obtain ⟨column', row'⟩ := c'
  simp only [cell, Coordinate.mk.injEq] at same ⊢
  omega

@[simp] theorem coordinate_carried (d : Shift) (a : Address) :
    (d.carried a).coordinate = d.cell a.coordinate := rfl

theorem admits_of_lt (grid : (d.carried a).InGrid) (small : (d.carried a).row < 9) : d.Admits a :=
  ⟨grid, Address.rowFits_of_lt small⟩

theorem target_eq_carried (columns : a.absoluteColumn = false) (rows : a.absoluteRow = false) :
    d.target a = d.carried a := by
  simp [target, carried, columns, rows]

end Fill.Shift

open Fill

variable {d : Shift}

def CellName.moved (d : Shift) : CellName → CellName
  | .text t =>
    match Address.parse t with
    | .error _ => .text t
    | .ok a => .text (d.carried a).text
  | .address a => .address (d.carried a)

def CellName.Stays (d : Shift) (name : CellName) : Prop :=
  ∀ a, name.toAddress = .ok a → d.Admits a

theorem CellName.toAddress_moved {name : CellName} {a : Address} (stays : name.Stays d)
    (named : name.toAddress = .ok a) : (name.moved d).toAddress = .ok (d.carried a) := by
  obtain ⟨grid, fits⟩ := stays a named
  cases name with
  | text t =>
    have parsed : Address.parse t = .ok a := named
    simp only [moved, parsed]
    exact Address.parse_text grid fits
  | address b =>
    cases named
    rfl

/-- The content of a cell after a move. Only the text of a formula changes. -/
def CellContent.moved (d : Shift) (content : CellContent) : Except Failure CellContent :=
  match content.formula with
  | none => .ok content
  | some text => (shift d text).map fun text => { content with formula := some text }

def RawCell.moved (d : Shift) : RawCell → Except Failure RawCell
  | .text t => (shift d t).map .text
  | .content c => (c.moved d).map .content
  | raw => .ok raw

def CellContent.Relocates (d : Shift) (content : CellContent) : Prop :=
  ∀ text, content.formula = some text → (formulaBody? text).isSome = true → d.Relocates text

def RawCell.Relocates (d : Shift) (raw : RawCell) : Prop :=
  ∀ content, raw.toContent = .ok content → content.Relocates d

def CellTable.moved (d : Shift) : CellTable → Except Failure CellTable
  | [] => .ok []
  | (name, raw) :: table =>
    (raw.moved d).bind fun raw => (moved d table).map ((name.moved d, raw) :: ·)

namespace CellContent

variable {content content' : CellContent}

/-- A content after a move: the same literal, or a formula whose references have moved. -/
inductive Moves (d : Shift) (content content' : CellContent) : Prop where
  | literal (before : content.body? = none) (after : content'.body? = none)
      (same : content'.value = content.value)
  | formula {body body' : String} {e : Expr} (before : content.body? = some body)
      (parsed : Expr.parse body = .ok e)
      (stay : ∀ r ∈ e.references, r.address.Renamed d.cell (r.moved d).address)
      (after : content'.body? = some body') (parsed' : Expr.parse body' = .ok (e.moved d))

theorem Moves.refl (literal : content.body? = none) : content.Moves d content :=
  .literal literal literal rfl

end CellContent

def RawCell.Moves (d : Shift) (raw raw' : RawCell) : Prop :=
  ∀ content, raw.toContent = .ok content →
    ∃ content', raw'.toContent = .ok content' ∧ content.Moves d content'

theorem RawCell.Moves.of_ok {raw raw' : RawCell} {content content' : CellContent}
    (held : raw.toContent = .ok content) (held' : raw'.toContent = .ok content')
    (moves : content.Moves d content') : raw.Moves d raw' := by
  intro other same
  cases held.symm.trans same
  exact ⟨content', held', moves⟩

theorem RawCell.Moves.refl {raw : RawCell}
    (literal : ∀ content, raw.toContent = .ok content → content.body? = none) : raw.Moves d raw :=
  fun content held => ⟨content, held, .refl (literal content held)⟩

namespace Fill.Shift.Relocates

variable {text : String}

theorem shift (h : d.Relocates text) :
    ∃ body e text' body', formulaBody? text = some body ∧ Expr.parse body = .ok e ∧
      (∀ r ∈ e.references, r.address.Renamed d.cell (r.moved d).address) ∧
      Fill.shift d text = .ok text' ∧ formulaBody? text' = some body' ∧
      Expr.parse body' = .ok (e.moved d) := by
  obtain ⟨body, e, formula, parsed, references⟩ := h
  have stay : ∀ r ∈ e.references, r.address.Renamed d.cell (r.moved d).address := by
    intro r member
    obtain ⟨columns, rows, admits⟩ := references r member
    have target := target_eq_carried (d := d) columns rows
    rw [Reference.address_moved, place_eq, target, if_pos admits.1]
    rfl
  have fits : ∀ r ∈ e.references, ∀ b, d.move? r.address = some b → b.RowFits := by
    intro r member b moved
    obtain ⟨columns, rows, admits⟩ := references r member
    rw [(move?_eq_some_iff.mp moved).1, target_eq_carried columns rows]
    exact admits.2
  obtain ⟨text', body', shifted, formula', parsed'⟩ := Expr.parse_shift formula parsed fits
  exact ⟨body, e, text', body', formula, parsed, stay, shifted, formula', parsed'⟩

end Fill.Shift.Relocates

theorem Fill.formulaBody?_shift {text text' : String} (shifted : Fill.shift d text = .ok text') :
    (formulaBody? text').isSome = (formulaBody? text).isSome := by
  unfold Fill.shift at shifted
  split at shifted
  · cases shifted
    rfl
  · rename_i body formula
    split at shifted
    · cases shifted
      rfl
    · obtain ⟨cs, -, rfl⟩ := Except.map_eq_ok shifted
      rw [formulaBody?_ofList, formula]
      rfl

theorem CellContent.exists_shift {content : CellContent} {text : String}
    (relocates : content.Relocates d) (written : content.formula = some text) :
    ∃ text', Fill.shift d text = .ok text' ∧
      content.Moves d { content with formula := some text' } := by
  cases starts : formulaBody? text with
  | none =>
    have literal : content.body? = none := by rw [body?, written]; exact starts
    exact ⟨text, shift_of_literal starts, .literal literal starts rfl⟩
  | some body =>
    have formula := relocates text written (by rw [starts]; rfl)
    obtain ⟨body, e, text', body', starts, parsed, stay, shifted, starts', parsed'⟩ :=
      formula.shift
    have before : content.body? = some body := by rw [body?, written]; exact starts
    exact ⟨text', shifted, .formula before parsed stay starts' parsed'⟩

theorem RawCell.toContent_of_formula {text body : String} (starts : formulaBody? text = some body) :
    (RawCell.text text).toContent = .ok { formula := some text } := by
  simp [toContent, starts]

theorem RawCell.exists_moved {raw : RawCell} (relocates : raw.Relocates d) :
    ∃ raw', raw.moved d = .ok raw' ∧ raw.Moves d raw' := by
  cases raw with
  | text t =>
    cases starts : formulaBody? t with
    | none =>
      refine ⟨.text t, by rw [moved, shift_of_literal starts]; rfl, .refl fun content held => ?_⟩
      simp only [toContent, starts] at held
      cases held
      rfl
    | some body =>
      have held := toContent_of_formula starts
      obtain ⟨t', shifted, moves⟩ := CellContent.exists_shift (relocates _ held) rfl
      have formula : (formulaBody? t').isSome = true := by
        rw [Fill.formulaBody?_shift shifted, starts]
        rfl
      obtain ⟨body', starts'⟩ := Option.isSome_iff_exists.mp formula
      exact ⟨.text t', by rw [moved, shifted]; rfl, .of_ok held (toContent_of_formula starts') moves⟩
  | content c =>
    have relocates : c.Relocates d := relocates c rfl
    cases written : c.formula with
    | none =>
      refine ⟨.content c, ?_, .of_ok rfl rfl (.refl (by simp [CellContent.body?, written]))⟩
      rw [moved, CellContent.moved, written]
      rfl
    | some text =>
      obtain ⟨text', shifted, moves⟩ := CellContent.exists_shift relocates written
      refine ⟨.content { c with formula := some text' }, ?_, .of_ok rfl rfl moves⟩
      simp only [moved, CellContent.moved, written, shifted]
      rfl
  | integer n =>
    refine ⟨_, rfl, .refl fun content held => ?_⟩
    rw [toContent] at held
    split at held
    · cases held
      rfl
    · cases held
  | empty | truth | number => exact ⟨_, rfl, .of_ok rfl rfl (.refl rfl)⟩

namespace CellTable

def Moves (d : Shift) (table table' : CellTable) : Prop :=
  table.Forall₂ (fun p q => q.1 = p.1.moved d ∧ p.2.Moves d q.2) table'

theorem exists_moved {table : CellTable}
    (relocates : ∀ entry ∈ table, entry.2.Relocates d) :
    ∃ table', table.moved d = .ok table' ∧ table.Moves d table' := by
  induction table with
  | nil => exact ⟨[], rfl, .nil⟩
  | cons entry table ih =>
    obtain ⟨name, raw⟩ := entry
    obtain ⟨raw', moves, content⟩ := RawCell.exists_moved (relocates _ List.mem_cons_self)
    obtain ⟨table', others, rest⟩ := ih fun q member => relocates q (List.mem_cons_of_mem _ member)
    refine ⟨(name.moved d, raw') :: table', ?_, .cons ⟨rfl, content⟩ rest⟩
    rw [moved, moves, others]
    rfl

end CellTable

namespace CellIndex

variable {index index' final : CellIndex} {c : Coordinate}

def Moves (d : Shift) (index index' : CellIndex) : Prop :=
  index.Forall₂ (fun p q => q.1 = d.cell p.1 ∧ p.2.Moves d q.2) index'

theorem Moves.get? (h : index.Moves d index') (c : Coordinate) :
    Option.Rel (CellContent.Moves d) (index.get? c) (index'.get? (d.cell c)) := by
  unfold CellIndex.get?
  induction h with
  | nil => exact .none
  | @cons p q index index' first _ ih =>
    obtain ⟨key, content⟩ := p
    obtain ⟨key', content'⟩ := q
    obtain ⟨rfl, moves⟩ := first
    rw [List.lookup_cons, List.lookup_cons]
    by_cases same : c = key
    · simp only [same, beq_self_eq_true]
      exact .some moves
    · have other : d.cell c ≠ d.cell key := d.cell_injective.ne same
      simp only [beq_false_of_ne same, beq_false_of_ne other]
      exact ih

theorem Moves.get?_eq_none_iff (h : index.Moves d index') :
    index'.get? (d.cell c) = none ↔ index.get? c = none := by
  have look := h.get? c
  revert look
  cases index.get? c <;> cases index'.get? (d.cell c) <;> simp

theorem Moves.add {name : CellName} {raw raw' : RawCell} (h : index.Moves d index')
    (stays : name.Stays d) (moves : raw.Moves d raw')
    (added : index.add name raw = .ok final) :
    ∃ final', index'.add (name.moved d) raw' = .ok final' ∧ final.Moves d final' := by
  unfold CellIndex.add at added
  split at added
  · cases added
  · rename_i a named
    split at added
    · cases added
    · rename_i free
      obtain ⟨content, held, rfl⟩ := Except.map_eq_ok added
      obtain ⟨content', held', content⟩ := moves content held
      refine ⟨index' ++ [(d.cell a.coordinate, content')], ?_,
        List.rel_append h (.cons ⟨rfl, content⟩ .nil)⟩
      rw [Option.isSome_iff_ne_none, not_not, ← h.get?_eq_none_iff] at free
      rw [CellIndex.add, CellName.toAddress_moved stays named]
      dsimp only
      rw [Shift.coordinate_carried, free, held']
      rfl

theorem Moves.addAll {table table' : CellTable} (h : index.Moves d index')
    (stay : ∀ entry ∈ table, entry.1.Stays d)
    (entries : table.Moves d table')
    (added : index.addAll table = .ok final) :
    ∃ final', index'.addAll table' = .ok final' ∧ final.Moves d final' := by
  induction entries generalizing index index' with
  | nil =>
    cases added
    exact ⟨index', rfl, h⟩
  | @cons p q table table' first _ ih =>
    obtain ⟨name, raw⟩ := p
    obtain ⟨name', raw'⟩ := q
    obtain ⟨rfl, moves⟩ := first
    obtain ⟨next, one, rest⟩ := Except.bind_eq_ok added
    obtain ⟨next', one', grown⟩ := h.add (stay _ List.mem_cons_self) moves one
    obtain ⟨final', rest', relocated⟩ :=
      ih grown (fun entry member => stay entry (List.mem_cons_of_mem _ member)) rest
    refine ⟨final', ?_, relocated⟩
    rw [CellIndex.addAll, one']
    exact rest'

theorem Moves.finding (h : index.Moves d index') (c : Coordinate) :
    FindingRenamed d.cell (Reference.moved d) (index.finding c) (index'.finding (d.cell c)) := by
  have look := h.get? c
  generalize here : index.get? c = found at look
  generalize there : index'.get? (d.cell c) = found' at look
  cases look with
  | none =>
    rw [finding_of_none here, finding_of_none there]
    exact .value _ _ _
  | some moves =>
    cases moves with
    | literal before after same =>
      rw [finding_of_literal here before, finding_of_literal there after, same]
      exact .value _ _ _
    | formula before parsed stay after parsed' =>
      rw [finding_of_formula here before parsed, finding_of_formula there after parsed']
      exact .formula stay

theorem Moves.renames (h : index.Moves d index') :
    Renames d.cell (Reference.moved d) index index' :=
  ⟨d.cell_injective, h.finding⟩

end CellIndex

end Spreadsheet
