import Spreadsheet.Formula.Draft
import Spreadsheet.Proofs.Fill.Parsing
import Spreadsheet.Proofs.Formula.Nesting
import Spreadsheet.Proofs.Token.Rendering

namespace Spreadsheet

open Token

variable {p q : Phrase} {ts : List Token} {e : Expr}

def Phrase.looser : Phrase → Phrase
  | .word => .primary
  | .primary => .percent
  | .percent => .signed
  | .signed => .operation .power
  | .operation .power => .operation .product
  | .operation .product => .operation .sum
  | .operation .sum => .operation .comparison
  | .operation .comparison | .formula => .formula

theorem Derives.looser (h : Derives p ts e) : Derives p.looser ts e := by
  cases p with
  | word => exact .word h
  | primary => exact .whole h
  | percent => exact .unsigned h
  | signed => exact @Derives.operand .power _ _ h
  | formula => exact h
  | operation level =>
    cases level with
    | power => exact @Derives.operand .product _ _ h
    | product => exact @Derives.operand .sum _ _ h
    | sum => exact @Derives.operand .comparison _ _ h
    | comparison => exact .formula h

namespace Draft

theorem looseness_looser (other : p ≠ .formula) : looseness p.looser = looseness p + 1 := by
  cases p with
  | formula => exact absurd rfl other
  | operation level => cases level <;> rfl
  | _ => rfl

theorem looseness_operand (level : Level) :
    looseness level.operand + 1 = looseness (.operation level) := by
  cases level <;> rfl

theorem looseness_le (p : Phrase) : looseness p ≤ looseness .formula := by
  cases p with
  | operation level => cases level <;> decide
  | _ => decide

theorem looseness_injective (same : looseness p = looseness q) : p = q := by
  have code : ∀ p : Phrase, p = match looseness p with
      | 0 => .word
      | 1 => .primary
      | 2 => .percent
      | 3 => .signed
      | 4 => .operation .power
      | 5 => .operation .product
      | 6 => .operation .sum
      | 7 => .operation .comparison
      | _ => .formula := by
    intro p
    cases p with
    | operation level => cases level <;> rfl
    | _ => rfl
  rw [code p, same, ← code q]

end Draft

open Draft

theorem Derives.of_looseness_le (h : Derives p ts e) (le : looseness p ≤ looseness q) :
    Derives q ts e := by
  obtain ⟨n, gap⟩ := Nat.exists_eq_add_of_le le
  induction n generalizing p with
  | zero => exact looseness_injective gap ▸ h
  | succ n ih =>
    have other : p ≠ .formula := by
      rintro rfl
      have most := looseness_le q
      omega
    have next := looseness_looser other
    exact ih h.looser (by omega) (by omega)

/-- The level of an operator that is no comparison's, and the comparisons' for all others. -/
def BinaryOp.level : BinaryOp → Level
  | .add | .subtract => .sum
  | .multiply | .divide => .product
  | .power => .power
  | _ => .comparison

theorem Level.level_of_binaryOp? {level : Level} {o : Operator} {op : BinaryOp}
    (found : level.binaryOp? o = some op) : op.level = level := by
  revert found
  fun_cases Level.binaryOp? level o <;> rintro ⟨⟩ <;> rfl

/-- The tightest phrase that an expression is without parentheses around it. -/
def Expr.phrase : Expr → Phrase
  | .const _ => .primary
  | .ref _ | .call _ _ => .word
  | .percent _ => .percent
  | .unary _ _ => .signed
  | .binary op _ _ => .operation op.level

theorem Derives.looseness_le_or_group (h : Derives p ts e) :
    looseness e.phrase ≤ looseness p ∨
      ∃ left inner right, ts = left :: inner ++ [right] ∧ left.kind = .leftParen ∧
        right.kind = .rightParen ∧ Closed inner := by
  induction h with
  | formula _ ih => exact .inl (looseness_le _)
  | equalSign _ _ ih => exact .inl (looseness_le _)
  | @operand level _ _ _ ih =>
    refine ih.imp_left fun le => ?_
    have next := looseness_operand level
    omega
  | operation _ mark =>
    obtain ⟨o, -, found⟩ := Level.opOfToken?_eq_some_iff.mp mark
    refine .inl ?_
    rw [Expr.phrase, Level.level_of_binaryOp? found]
  | unsigned _ ih | whole _ ih | word _ ih => exact ih.imp_left Nat.le_succ_of_le
  | signed | percent | number | truth | reference | call => exact .inl (Nat.le_refl _)
  | group opening inner closing => exact .inr ⟨_, _, _, rfl, opening, closing, inner.closed⟩

theorem Function.lookup?_name (f : Function) : lookup? f.name = some f := by
  have capitals : f.name.toList.all (fun c => c.toNat < 97) = true := by
    cases f with
    | aggregate a => cases a <;> decide
    | conditional => decide
  have upper := Text.upperChars_of_lt (by simpa using capitals)
  rw [lookup?, Text.upper, upper, String.ofList_toList, named?_name]

/-- All tokens of some kinds are a phrase that writes an expression. -/
def Kinds.Derive (p : Phrase) (kinds : List Kind) (e : Expr) : Prop :=
  ∀ ts : List Token, ts.map (·.kind) = kinds → Derives p ts e

namespace Kinds

variable {kinds others : List Kind} {x y : Expr} {level : Level} {op : Operator}

theorem Derive.grouped (h : Derive p kinds e) (loose : 1 ≤ looseness q)
    (below : looseness p ≤ looseness (.operation .comparison)) :
    Derive q (grouped p q kinds) e := by
  intro ts same
  unfold Draft.grouped at same
  split at same
  · rename_i le
    exact (h ts same).of_looseness_le le
  · obtain ⟨body, last, rfl, front, final⟩ := List.map_eq_append_iff.mp same
    obtain ⟨left, inner, rfl, opening, inside⟩ := List.map_eq_cons_iff.mp front
    obtain ⟨right, rfl, closing⟩ := List.map_eq_singleton_iff.mp final
    exact (Derives.group opening ((h inner inside).of_looseness_le below) closing).of_looseness_le
      loose

theorem Derive.percent (h : Derive .percent kinds e) :
    Derive .percent (kinds ++ [.operator .percent]) (.percent e) := by
  intro ts same
  obtain ⟨inner, last, rfl, inside, final⟩ := List.map_eq_append_iff.mp same
  obtain ⟨t, rfl, mark⟩ := List.map_eq_singleton_iff.mp final
  exact .percent (h inner inside) mark

theorem Derive.unary (minus : Bool) (h : Derive .signed kinds e) :
    Derive .signed (.operator (if minus then .minus else .plus) :: kinds)
      (.unary (if minus then .minus else .plus) e) := by
  intro ts same
  obtain ⟨t, inner, rfl, mark, inside⟩ := List.map_eq_cons_iff.mp same
  refine .signed ?_ (h inner inside)
  unfold Sign.ofToken?
  cases minus <;> simp [mark]

theorem Derive.binary {b : BinaryOp} (found : level.binaryOp? op = some b)
    (left : Derive (.operation level) kinds x) (right : Derive level.operand others y) :
    Derive (.operation level) (kinds ++ .operator op :: others) (.binary b x y) := by
  intro ts same
  obtain ⟨before, rest, rfl, front, back⟩ := List.map_eq_append_iff.mp same
  obtain ⟨t, after, rfl, mark, final⟩ := List.map_eq_cons_iff.mp back
  exact .operation (left before front) (Level.opOfToken?_eq_some_iff.mpr ⟨op, mark, found⟩)
    (right after final)

def DeriveAll (kinds : List Kind) (es : List Expr) : Prop :=
  ∀ ts : List Token, ts.map (·.kind) = kinds →
    ∃ arguments : List (List Token × Expr), arguments.map Prod.snd = es ∧
      (∀ p ∈ arguments, Derives (.operation .comparison) p.1 p.2) ∧
      Separated (arguments.map Prod.fst) ts

theorem DeriveAll.nil : DeriveAll [] [] := by
  intro ts same
  cases List.map_eq_nil_iff.mp same
  exact ⟨[], rfl, nofun, .none⟩

theorem DeriveAll.one (h : Derive (.operation .comparison) kinds e) : DeriveAll kinds [e] := by
  intro ts same
  exact ⟨[(ts, e)], rfl, by simpa using h ts same, .one ts⟩

theorem DeriveAll.more {es : List Expr} (first : Derive (.operation .comparison) kinds e)
    (rest : DeriveAll others (x :: es)) : DeriveAll (kinds ++ .comma :: others) (e :: x :: es) := by
  intro ts same
  obtain ⟨before, after, rfl, front, back⟩ := List.map_eq_append_iff.mp same
  obtain ⟨comma, later, rfl, mark, final⟩ := List.map_eq_cons_iff.mp back
  obtain ⟨arguments, expressions, derived, separated⟩ := rest later final
  obtain ⟨p, arguments, rfl, rfl, rfl⟩ := List.map_eq_cons_iff.mp expressions
  refine ⟨(before, e) :: p :: arguments, rfl, ?_, .more mark separated⟩
  exact List.forall_mem_cons.mpr ⟨first before front, derived⟩

theorem DeriveAll.call {f : Function} {es : List Expr} (h : DeriveAll kinds es)
    (admitted : f.arity.Admits es.length) :
    Derive .word (.identifier f.name :: .leftParen :: kinds ++ [.rightParen]) (.call f.name es) := by
  intro ts same
  obtain ⟨body, last, rfl, front, final⟩ := List.map_eq_append_iff.mp same
  obtain ⟨t, rest, rfl, mark, behind⟩ := List.map_eq_cons_iff.mp front
  obtain ⟨left, inner, rfl, opening, inside⟩ := List.map_eq_cons_iff.mp behind
  obtain ⟨right, rfl, closing⟩ := List.map_eq_singleton_iff.mp final
  obtain ⟨arguments, rfl, derived, separated⟩ := h inner inside
  rw [List.length_map] at admitted
  exact .call mark f.lookup?_name opening derived separated closing admitted

end Kinds

namespace Draft

variable {d : Draft} {ds : List Draft}

theorem looseness_phrase_le (d : Draft) :
    looseness d.phrase ≤ looseness (.operation .comparison) := by
  cases d with
  | binary level => cases level <;> simp [phrase, looseness]
  | _ => simp [phrase, looseness]

mutual

theorem exists_derive (d : Draft) (valid : d.Valid) :
    ∃ e, d.expr? = some e ∧ d.phrase = e.phrase ∧ Kinds.Derive d.phrase d.kinds e := by
  cases d with
  | number text =>
    refine ⟨_, rfl, rfl, fun ts same => ?_⟩
    obtain ⟨t, rfl, mark⟩ := List.map_eq_singleton_iff.mp same
    exact .number mark valid.2
  | truth b =>
    refine ⟨_, rfl, rfl, fun ts same => ?_⟩
    obtain ⟨t, rfl, mark⟩ := List.map_eq_singleton_iff.mp same
    exact .truth mark
  | reference text =>
    obtain ⟨a, address⟩ := valid
    refine ⟨.ref ⟨a, text⟩, by rw [expr?, address]; rfl, rfl, fun ts same => ?_⟩
    obtain ⟨t, rfl, mark⟩ := List.map_eq_singleton_iff.mp same
    exact .reference mark address
  | percent d =>
    obtain ⟨e, expr, -, derive⟩ := exists_derive d valid
    refine ⟨.percent e, by rw [expr?, expr]; rfl, rfl, ?_⟩
    exact (derive.grouped (by decide) d.looseness_phrase_le).percent
  | unary minus d =>
    obtain ⟨e, expr, -, derive⟩ := exists_derive d valid
    refine ⟨.unary (if minus then .minus else .plus) e, by rw [expr?, expr]; rfl, rfl, ?_⟩
    exact (derive.grouped (by decide) d.looseness_phrase_le).unary minus
  | binary level op l r =>
    obtain ⟨known, left, right⟩ := valid
    obtain ⟨b, found⟩ := Option.isSome_iff_exists.mp known
    obtain ⟨x, first, -, before⟩ := exists_derive l left
    obtain ⟨y, second, -, after⟩ := exists_derive r right
    refine ⟨.binary b x y, by rw [expr?, found, first, second]; rfl, ?_, ?_⟩
    · rw [phrase, Expr.phrase, Level.level_of_binaryOp? found]
    · have loose : 1 ≤ looseness (.operation level) ∧ 1 ≤ looseness level.operand := by
        cases level <;> decide
      exact (before.grouped loose.1 l.looseness_phrase_le).binary found
        (after.grouped loose.2 r.looseness_phrase_le)
  | call f ds =>
    obtain ⟨es, exprs, count, derive⟩ := exists_deriveAll ds valid.2
    refine ⟨.call f.name es, by rw [expr?, exprs]; rfl, rfl, derive.call ?_⟩
    rw [count]
    exact valid.1

theorem exists_deriveAll (ds : List Draft) (valid : AllValid ds) :
    ∃ es, exprs? ds = some es ∧ es.length = ds.length ∧
      Kinds.DeriveAll (argumentKinds ds) es := by
  cases ds with
  | nil => exact ⟨[], rfl, rfl, .nil⟩
  | cons d ds =>
    obtain ⟨e, expr, -, derive⟩ := exists_derive d valid.1
    obtain ⟨es, exprs, count, derives⟩ := exists_deriveAll ds valid.2
    have first : Kinds.Derive (.operation .comparison) d.kinds e := fun ts same =>
      (derive ts same).of_looseness_le d.looseness_phrase_le
    refine ⟨e :: es, by rw [exprs?, expr, exprs]; rfl, by simp [count], ?_⟩
    cases ds with
    | nil =>
      cases exprs
      exact .one first
    | cons d' ds =>
      obtain ⟨x, es, rfl⟩ := List.exists_cons_of_length_eq_add_one count
      exact .more first derives

end

theorem not_group (valid : d.Valid) (same : ts.map (·.kind) = d.kinds) {left right : Token}
    {inner : List Token} (whole : ts = left :: inner ++ [right]) (opening : left.kind = .leftParen)
    (closing : right.kind = .rightParen) : ¬ Closed inner := by
  intro closed
  have ends : d.kinds = .leftParen :: inner.map (·.kind) ++ [.rightParen] := by
    rw [← same, whole, List.map_append, List.map_cons, opening, List.map_singleton, closing]
  cases d with
  | number | truth | reference | unary | call => cases ends
  | percent d =>
    have last := (List.append_inj' ends rfl).2
    cases last
  | binary level op l r =>
    obtain ⟨x, -, -, derive⟩ := exists_derive l valid.2.1
    have loose : 1 ≤ looseness (.operation level) := by cases level <;> decide
    obtain ⟨before, after, split, front, back⟩ := List.map_eq_append_iff.mp same
    obtain ⟨t, rest, rfl, -, -⟩ := List.map_eq_cons_iff.mp back
    have phrase := derive.grouped loose l.looseness_phrase_le before front
    exact closed.not_split opening (whole.symm.trans split) phrase.ne_nil nofun phrase.closed

/-- The tokens of a draft are a phrase just if the phrase is as loose as the draft. -/
theorem derives_iff (valid : d.Valid) (same : ts.map (·.kind) = d.kinds) (expr : d.expr? = some e) :
    Derives p ts e ↔ looseness d.phrase ≤ looseness p := by
  obtain ⟨e', expr', phrase, derive⟩ := exists_derive d valid
  cases expr.symm.trans expr'
  refine ⟨fun derived => ?_, fun le => (derive ts same).of_looseness_le le⟩
  rcases derived.looseness_le_or_group with le | ⟨left, inner, right, whole, opening, closing, closed⟩
  · exact phrase ▸ le
  · exact absurd closed (not_group valid same whole opening closing)

end Draft

theorem Token.spells_of_tokenize {text : String} {position : Nat}
    (h : tokenize text = .ok [⟨.number text, position⟩]) :
    Spells text.toList (.number text) := by
  obtain ⟨spelling, spells⟩ := exists_spells_of_tokenize h List.mem_cons_self
  exact spells.eq_number ▸ spells

namespace Draft

theorem spells_function (f : Function) : Spells f.name.toList (.identifier f.name) := by
  have word : IsWord f.name.toList ∧ Kind.ofWord f.name.toList = .identifier f.name := by
    cases f with
    | aggregate a => cases a <;> exact ⟨⟨rfl, rfl⟩, rfl⟩
    | conditional => exact ⟨⟨rfl, rfl⟩, rfl⟩
  exact word.2 ▸ Spells.word word.1

def Spelled (kinds : List Kind) : Prop := ∀ k ∈ kinds, Spells k.text.toList k

variable {kinds others : List Kind} {k : Kind}

theorem Spelled.cons (first : Spells k.text.toList k) (rest : Spelled kinds) :
    Spelled (k :: kinds) :=
  List.forall_mem_cons.mpr ⟨first, rest⟩

theorem Spelled.append (first : Spelled kinds) (second : Spelled others) :
    Spelled (kinds ++ others) :=
  List.forall_mem_append.mpr ⟨first, second⟩

theorem Spelled.one (h : Spells k.text.toList k) : Spelled [k] := .cons h nofun

theorem Spelled.wrap (h : Spelled kinds) : Spelled (.leftParen :: kinds ++ [.rightParen]) :=
  .append (.cons .leftParen h) (.one .rightParen)

theorem Spelled.grouped (h : Spelled kinds) : Spelled (grouped p q kinds) := by
  unfold Draft.grouped
  split
  · exact h
  · exact h.wrap

mutual

theorem spelled (d : Draft) (valid : d.Valid) : Spelled d.kinds := by
  cases d with
  | number text => exact .one (spells_of_tokenize valid.1)
  | truth b => exact .one (spells_boolean b)
  | reference text =>
    obtain ⟨a, address⟩ := valid
    exact .one (spells_of_parse address)
  | percent d => exact (spelled d valid).grouped.append (.one (.operator .percent))
  | unary minus d => exact .cons (.operator _) (spelled d valid).grouped
  | binary level op l r =>
    exact (spelled l valid.2.1).grouped.append
      (.cons (.operator op) (spelled r valid.2.2).grouped)
  | call f ds => exact .cons (spells_function f) (spelledAll ds valid.2).wrap

theorem spelledAll (ds : List Draft) (valid : AllValid ds) : Spelled (argumentKinds ds) := by
  cases ds with
  | nil => exact nofun
  | cons d ds =>
    have first := spelled d valid.1
    have rest := spelledAll ds valid.2
    cases ds with
    | nil => exact first
    | cons d' ds => exact first.append (.cons .comma rest)

end

def lexemes (gaps : List (List Char)) (kinds : List Kind) : List Lexeme :=
  (gaps.zip kinds).map fun part => ⟨part.1, part.2.text.toList, part.2⟩

theorem render_eq_join (gaps : List (List Char)) (kinds : List Kind) (last : List Char) :
    render (gaps.zip kinds) last = Lexeme.join (lexemes gaps kinds) last :=
  (join_ofPart (gaps.zip kinds) last).symm

theorem kinds_lexemes {gaps : List (List Char)} (count : gaps.length = kinds.length) :
    (lexemes gaps kinds).map Lexeme.kind = kinds := by
  rw [lexemes, List.map_map]
  exact List.map_snd_zip (Nat.le_of_eq count.symm)

theorem valid_lexemes {gaps : List (List Char)} (spelled : Spelled kinds)
    (blank : ∀ gap ∈ gaps, gap.all Text.isBlank = true) : ∀ x ∈ lexemes gaps kinds, x.Valid := by
  intro x member
  obtain ⟨⟨gap, k⟩, part, rfl⟩ := List.mem_map.mp member
  obtain ⟨inside, kind⟩ := List.of_mem_zip part
  exact ⟨blank gap inside, spelled k kind⟩

/-- A draft's text, with any blanks around its tokens, is read as the draft's expression. It has
    parentheses only where they are needed: the bare tokens of a draft are a phrase of a kind just
    if that kind is as loose as the draft. -/
theorem parse_printed {d : Draft} {gaps : List (List Char)} {last : List Char} (valid : d.Valid)
    (count : gaps.length = d.kinds.length) (blank : ∀ gap ∈ gaps, gap.all Text.isBlank = true)
    (final : last.all Text.isBlank = true) :
    ∃ e, d.expr? = some e ∧ Expr.parse (d.text gaps last) = .ok e ∧
      ∀ p ts, ts.map (·.kind) = d.kinds →
        (Derives p ts e ↔ looseness d.phrase ≤ looseness p) := by
  obtain ⟨e, expr, -, derive⟩ := exists_derive d valid
  refine ⟨e, expr, ?_, fun p ts same => derives_iff valid same expr⟩
  rw [text, render_eq_join]
  refine Expr.parse_join (valid_lexemes (d.spelled valid) blank) final fun ts same => ?_
  exact (derive ts (same.trans (kinds_lexemes count))).of_looseness_le (looseness_le _)

theorem parse_printed_of_nested :
    let d : Draft := .binary .sum .minus (.number "1.e1")
      (.binary .sum .minus (.reference "$a1") (.percent (.unary true (.truth false))))
    let gaps : List (List Char) := [[], [' '], [], ['\t'], [], [], [], [], ['\n'], [], []]
    d.text gaps [' '] = "1.e1 -(\t$a1-(-FALSE\n)%) " ∧ d.Valid ∧
      gaps.length = d.kinds.length ∧ (∀ gap ∈ gaps, gap.all Text.isBlank = true) ∧
      [' '].all Text.isBlank = true ∧
      ∃ e, d.expr? = some e ∧ Expr.parse (d.text gaps [' ']) = .ok e ∧
        ∀ p ts, ts.map (·.kind) = d.kinds →
          (Derives p ts e ↔ looseness d.phrase ≤ looseness p) := by
  intro d gaps
  have valid : d.Valid := by
    refine ⟨rfl, ⟨by cbv, by decide +kernel⟩, rfl, ⟨⟨0, 0, true, false⟩, by cbv⟩, trivial⟩
  have count : gaps.length = d.kinds.length := by decide
  have blank : ∀ gap ∈ gaps, gap.all Text.isBlank = true := by decide
  have final : [' '].all Text.isBlank = true := by decide
  exact ⟨by cbv, valid, count, blank, final, parse_printed valid count blank final⟩

end Draft

end Spreadsheet
