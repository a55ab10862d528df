import Spreadsheet.Proofs.Formula.Soundness

namespace Spreadsheet

theorem Level.opOfToken?_eq_some_iff {level : Level} {t : Token} {op : BinaryOp} :
    level.opOfToken? t = some op ↔ ∃ o, t.kind = .operator o ∧ level.binaryOp? o = some op := by
  unfold opOfToken?
  split
  · rename_i o mark
    simp [mark]
  · rename_i other
    constructor
    · intro h
      cases h
    · rintro ⟨o, mark, _⟩
      exact absurd mark (other o)

namespace Phrase

def maySign : Phrase → Bool
  | .word | .primary | .percent => false
  | .signed | .operation _ | .formula => true

def opens (p : Phrase) (t : Token) : Bool :=
  match t.kind with
  | .number _ | .boolean _ | .identifier _ | .leftParen => true
  | .operator .plus | .operator .minus => p.maySign
  | .operator .equal => p == .formula
  | _ => false

theorem opens_mono {p q : Phrase} {t : Token} (h : p.opens t = true) (other : p ≠ .formula)
    (imp : p.maySign = true → q.maySign = true) : q.opens t = true := by
  unfold opens at h ⊢
  split at h
  all_goals simp_all

/-- Whether a token after a phrase would be read as more of the phrase. -/
def Extends : Phrase → Token → Prop
  | .word, t | .primary, t => t.kind = .leftParen
  | .percent, t | .signed, t => t.kind = .leftParen ∨ t.kind = .operator .percent
  | .operation level, t =>
    t.kind = .leftParen ∨ t.kind = .operator .percent ∨
      ∃ tight : Level, tight.rank ≤ level.rank ∧ (tight.opOfToken? t).isSome = true
  | .formula, _ => True

/-- What comes after a phrase is not read as more of it. -/
def Ends (p : Phrase) (rest : List Token) : Prop := ∀ t ∈ rest.head?, ¬ p.Extends t

theorem Ends.nil (p : Phrase) : p.Ends [] := nofun

theorem Ends.cons {p : Phrase} {t : Token} (h : ¬ p.Extends t) (rest : List Token) :
    p.Ends (t :: rest) := by
  intro u head
  cases head
  exact h

theorem ends_operation {t : Token} (h : t.kind = .rightParen ∨ t.kind = .comma) (level : Level)
    (rest : List Token) : (Phrase.operation level).Ends (t :: rest) := by
  apply Ends.cons
  rintro (kind | kind | ⟨tight, _, some⟩)
  · simp [kind] at h
  · simp [kind] at h
  · obtain ⟨op, found⟩ := Option.isSome_iff_exists.mp some
    obtain ⟨o, kind, _⟩ := Level.opOfToken?_eq_some_iff.mp found
    simp [kind] at h

theorem Ends.imp {p q : Phrase} {rest : List Token} (h : p.Ends rest)
    (weaker : ∀ t, q.Extends t → p.Extends t) : q.Ends rest :=
  fun t head more => h t head (weaker t more)

end Phrase

namespace Level

theorem binaryOp?_unique {level other : Level} {o : Operator} {op op' : BinaryOp}
    (h : level.binaryOp? o = some op) (h' : other.binaryOp? o = some op') : level = other := by
  cases o <;> cases level <;> cases h <;> cases other <;> first | rfl | cases h'

theorem opOfToken?_unique {level other : Level} {t : Token} {op op' : BinaryOp}
    (h : level.opOfToken? t = some op) (h' : other.opOfToken? t = some op') : level = other := by
  obtain ⟨o, mark, found⟩ := opOfToken?_eq_some_iff.mp h
  obtain ⟨o', mark', found'⟩ := opOfToken?_eq_some_iff.mp h'
  have same : o = o' := by simpa [mark] using mark'
  exact binaryOp?_unique found (same ▸ found')

theorem operand_extends {level : Level} {t : Token} (h : level.operand.Extends t) :
    (Phrase.operation level).Extends t := by
  cases level with
  | comparison | sum | product =>
    rcases h with paren | percent | ⟨tight, le, some⟩
    · exact .inl paren
    · exact .inr (.inl percent)
    · exact .inr (.inr ⟨tight, Nat.le_trans le (by decide), some⟩)
  | power => exact h.imp id .inl

theorem not_operand_extends {level : Level} {t : Token} {op : BinaryOp}
    (h : level.opOfToken? t = some op) : ¬ level.operand.Extends t := by
  obtain ⟨o, mark, found⟩ := opOfToken?_eq_some_iff.mp h
  have paren : t.kind ≠ .leftParen := by simp [mark]
  have percent : t.kind ≠ .operator .percent := by
    intro same
    rw [mark] at same
    cases same
    cases level <;> cases found
  intro more
  cases level with
  | comparison | sum | product =>
    rcases more with kind | kind | ⟨tight, le, some⟩
    · exact paren kind
    · exact percent kind
    · obtain ⟨op', found'⟩ := Option.isSome_iff_exists.mp some
      rw [← opOfToken?_unique h found'] at le
      exact absurd le (by decide)
  | power => exact more.elim paren percent

end Level

theorem Level.operand_ne_formula (level : Level) : level.operand ≠ .formula := by
  cases level <;> exact nofun

theorem Sign.kind_of_ofToken? {t : Token} {s : Sign} (h : Sign.ofToken? t = some s) :
    t.kind = .operator .plus ∨ t.kind = .operator .minus := by
  unfold Sign.ofToken? at h
  split at h
  · rename_i kind
    exact .inl kind
  · rename_i kind
    exact .inr kind
  · cases h

theorem Token.Separated.starts {u : Token} {us ws : List Token} {rest : List (List Token)}
    (h : Token.Separated ((u :: us) :: rest) ws) : ∃ vs, ws = u :: vs := by
  cases h with
  | one => exact ⟨us, rfl⟩
  | more => exact ⟨_, rfl⟩

theorem Derives.opens {p : Phrase} {ts : List Token} {e : Expr} (h : Derives p ts e) :
    ∃ t us, ts = t :: us ∧ p.opens t = true := by
  induction h with
  | formula body ih | unsigned body ih | whole body ih | word body ih =>
    obtain ⟨t, us, rfl, opening⟩ := ih
    exact ⟨t, us, rfl, Phrase.opens_mono opening (by simp) (by simp [Phrase.maySign])⟩
  | @operand level us e only ih =>
    obtain ⟨t, us, rfl, opening⟩ := ih
    exact ⟨t, us, rfl, Phrase.opens_mono opening level.operand_ne_formula fun _ => rfl⟩
  | equalSign mark body ih => exact ⟨_, _, rfl, by simp [Phrase.opens, mark]⟩
  | operation left mark right ihLeft ihRight =>
    obtain ⟨t, us, rfl, opening⟩ := ihLeft
    exact ⟨t, _, rfl, opening⟩
  | signed mark operand ih =>
    rcases Sign.kind_of_ofToken? mark with kind | kind
    all_goals exact ⟨_, _, rfl, by simp [Phrase.opens, Phrase.maySign, kind]⟩
  | percent operand mark ih =>
    obtain ⟨t, us, rfl, opening⟩ := ih
    exact ⟨t, _, rfl, opening⟩
  | number mark finite => exact ⟨_, _, rfl, by simp [Phrase.opens, mark]⟩
  | truth mark => exact ⟨_, _, rfl, by simp [Phrase.opens, mark]⟩
  | group opening inner closing ih => exact ⟨_, _, rfl, by simp [Phrase.opens, opening]⟩
  | reference mark valid => exact ⟨_, _, rfl, by simp [Phrase.opens, mark]⟩
  | call mark known opening inner separated closing admitted ih =>
    exact ⟨_, _, rfl, by simp [Phrase.opens, mark]⟩

namespace Parsed

def result {n : Nat} {α : Type} (p : Parsed n α) : Except Failure α × List Token :=
  (p.outcome, p.rest)

@[simp] theorem result_widen {m n : Nat} {α : Type} (p : Parsed m α) (le : m ≤ n) :
    (p.widen le).result = p.result := rfl

@[simp] theorem result_skip {α : Type} (outcome : Except Failure α) (t : Token)
    (ts : List Token) : (Parsed.skip outcome t ts).result = (outcome, ts) := rfl

theorem result_map {n : Nat} {α β : Type} {p : Parsed n α} {x : α} {rest : List Token}
    (h : p.result = (.ok x, rest)) (g : α → β) : (p.map g).result = (.ok (g x), rest) := by
  obtain ⟨outcome, rest', bound⟩ := p
  cases h
  rfl

theorem result_andThen {n : Nat} {α β : Type} {p : Parsed n α} {x : α} {rest : List Token}
    (h : p.result = (.ok x, rest))
    (g : α → (rest : List Token) → rest.length ≤ n → Parsed rest.length β) :
    ∃ le, (p.andThen g).result = (g x rest le).result := by
  obtain ⟨outcome, rest', bound⟩ := p
  cases h
  exact ⟨bound, rfl⟩

end Parsed

namespace Expr

open Phrase

/-- What the parser gives for the tokens of a phrase with others after them. Of an operation it
    goes on with the operators that follow, and of a percent phrase with the percent signs. -/
def Reads : Phrase → List Token → Expr → Prop
  | .formula, ts, e => parseTokens ts = .ok e
  | .operation level, ts, e => ∀ rest, level.operand.Ends rest →
      (parseOperation level (ts ++ rest)).result = (parseChain level e rest).result
  | .signed, ts, e => ∀ rest, Phrase.signed.Ends rest →
      (parseSigned (ts ++ rest)).result = (.ok e, rest)
  | .percent, ts, e => ∀ rest, Phrase.primary.Ends rest →
      (parsePercent (ts ++ rest)).result = (e.withPercents rest).result
  | .primary, ts, e => ∀ rest, Phrase.primary.Ends rest →
      (parsePrimary (ts ++ rest)).result = (.ok e, rest)
  | .word, ts, e => (∃ t us name, ts = t :: us ∧ t.kind = .identifier name) ∧
      ∀ rest, Phrase.word.Ends rest → (parseWord (ts ++ rest)).result = (.ok e, rest)

theorem parseChain_of_ends {level : Level} {rest : List Token}
    (h : (Phrase.operation level).Ends rest) (e : Expr) :
    (parseChain level e rest).result = (.ok e, rest) := by
  cases rest with
  | nil =>
    rw [parseChain]
    rfl
  | cons t rest =>
    have none : level.opOfToken? t = none := by
      cases found : level.opOfToken? t with
      | none => rfl
      | some op => exact absurd (.inr (.inr ⟨level, Nat.le_refl _, by simp [found]⟩)) (h t rfl)
    rw [parseChain]
    simp only [none]
    rfl

theorem withPercents_of_ends {rest : List Token} (h : Phrase.signed.Ends rest) (e : Expr) :
    (e.withPercents rest).result = (.ok e, rest) := by
  cases rest with
  | nil => rfl
  | cons t rest =>
    have other : t.kind ≠ .operator .percent := fun mark => h t rfl (.inr mark)
    simp only [withPercents, if_neg other]
    rfl

theorem Reads.read_operation {level : Level} {ts : List Token} {e : Expr}
    (h : Reads (.operation level) ts e) {rest : List Token}
    (ends : (Phrase.operation level).Ends rest) :
    (parseOperation level (ts ++ rest)).result = (.ok e, rest) :=
  (h rest (ends.imp fun _ => Level.operand_extends)).trans (parseChain_of_ends ends e)

theorem Reads.read_operand {level : Level} {ts : List Token} {e : Expr}
    (h : Reads level.operand ts e) {rest : List Token} (ends : level.operand.Ends rest) :
    (parseOperand level (ts ++ rest)).result = (.ok e, rest) := by
  rw [Expr.parseOperand.eq_def]
  cases level with
  | comparison | sum | product => exact h.read_operation ends
  | power => exact h rest ends

namespace Reads

theorem only {level : Level} {ts : List Token} {e : Expr} (h : Reads level.operand ts e) :
    Reads (.operation level) ts e := by
  intro rest ends
  rw [parseOperation]
  obtain ⟨_, next⟩ := Parsed.result_andThen (h.read_operand ends) _
  exact next

theorem operation {level : Level} {ts us : List Token} {t : Token} {op : BinaryOp} {x y : Expr}
    (left : Reads (.operation level) ts x) (mark : level.opOfToken? t = some op)
    (right : Reads level.operand us y) :
    Reads (.operation level) (ts ++ t :: us) (.binary op x y) := by
  intro rest ends
  have first := left (t :: us ++ rest) (.cons (Level.not_operand_extends mark) _)
  rw [List.append_assoc, first, List.cons_append, parseChain]
  simp only [mark]
  obtain ⟨_, next⟩ := Parsed.result_andThen (right.read_operand ends) _
  exact next

theorem unsigned {ts : List Token} {e : Expr} (h : Reads .percent ts e)
    (opening : ∃ t us, ts = t :: us ∧ Phrase.percent.opens t = true) : Reads .signed ts e := by
  intro rest ends
  obtain ⟨t, us, rfl, opening⟩ := opening
  have none : Sign.ofToken? t = none := by
    cases found : Sign.ofToken? t with
    | none => rfl
    | some s =>
      rcases Sign.kind_of_ofToken? found with kind | kind
      all_goals simp [Phrase.opens, Phrase.maySign, kind] at opening
  rw [List.cons_append, parseSigned]
  simp only [none]
  have percent := h rest (ends.imp fun _ paren => .inl paren)
  rw [List.cons_append] at percent
  exact percent.trans (withPercents_of_ends ends e)

theorem signed {t : Token} {s : Sign} {ts : List Token} {e : Expr}
    (mark : Sign.ofToken? t = some s) (h : Reads .signed ts e) :
    Reads .signed (t :: ts) (.unary s e) := by
  intro rest ends
  rw [List.cons_append, parseSigned]
  simp only [mark]
  exact Parsed.result_map (h rest ends) _

theorem whole {ts : List Token} {e : Expr} (h : Reads .primary ts e) : Reads .percent ts e := by
  intro rest ends
  rw [parsePercent]
  obtain ⟨_, next⟩ := Parsed.result_andThen (h rest ends) _
  exact next

theorem percent {t : Token} {ts : List Token} {e : Expr} (h : Reads .percent ts e)
    (mark : t.kind = .operator .percent) : Reads .percent (ts ++ [t]) (.percent e) := by
  intro rest ends
  have paren : ¬ Phrase.primary.Extends t := by simp [Phrase.Extends, mark]
  rw [List.append_assoc, List.singleton_append, h _ (.cons paren _)]
  simp only [withPercents, if_pos mark]
  rfl

theorem number {t : Token} {text : String} (mark : t.kind = .number text)
    (finite : (Numeral.floatOfText text).isFinite = true) :
    Reads .primary [t] (.const (Numeral.floatOfText text)) := by
  intro rest ends
  rw [List.singleton_append, parsePrimary]
  simp only [mark, ofNumber, finite]
  rfl

theorem truth {t : Token} {b : Bool} (mark : t.kind = .boolean b) :
    Reads .primary [t] (.const (if b then 1.0 else 0.0)) := by
  intro rest ends
  rw [List.singleton_append, parsePrimary]
  simp only [mark]
  rfl

theorem group {left right : Token} {ts : List Token} {e : Expr} (opening : left.kind = .leftParen)
    (inner : Reads (.operation .comparison) ts e) (closing : right.kind = .rightParen) :
    Reads .primary (left :: ts ++ [right]) e := by
  intro rest ends
  have body := inner.read_operation (Phrase.ends_operation (.inl closing) .comparison rest)
  rw [List.append_assoc, List.singleton_append, List.cons_append, parsePrimary]
  simp only [opening]
  obtain ⟨_, next⟩ := Parsed.result_andThen body _
  refine next.trans ?_
  simp only [closeGroup, if_pos closing]
  rfl

theorem word {ts : List Token} {e : Expr} (h : Reads .word ts e) : Reads .primary ts e := by
  intro rest ends
  obtain ⟨⟨t, us, name, rfl, mark⟩, read⟩ := h
  rw [List.cons_append, parsePrimary]
  simp only [mark]
  exact read rest ends

theorem reference {t : Token} {name : String} {a : Address} (mark : t.kind = .identifier name)
    (valid : Address.parse name = .ok a) : Reads .word [t] (.ref ⟨a, name⟩) := by
  have found : ofWord t.text t.position = .ok (.ref ⟨a, name⟩) := by
    rw [text_of_identifier mark, ofWord, Address.parse?_eq_some_iff.mpr valid]
  refine ⟨⟨t, [], name, rfl, mark⟩, fun rest ends => ?_⟩
  rw [List.singleton_append, parseWord.eq_def]
  cases rest with
  | nil =>
    simp only [found]
    rfl
  | cons next rest =>
    have other : next.kind ≠ .leftParen := ends next rfl
    simp only [if_neg other, found]
    rfl

theorem arguments {f : Function} {right : Token} (closing : right.kind = .rightParen)
    {first : List Token × Expr} {others : List (List Token × Expr)} {given : List Expr}
    {ts : List Token} (inner : ∀ p ∈ first :: others, Reads (.operation .comparison) p.1 p.2)
    (separated : Token.Separated ((first :: others).map Prod.fst) ts) (rest : List Token) :
    (parseArguments f given (ts ++ right :: rest)).result =
      (ofCall f (given ++ (first :: others).map Prod.snd), rest) := by
  induction others generalizing first given ts with
  | nil =>
    cases separated with
    | one =>
      have body := (inner first (List.mem_singleton_self first)).read_operation
        (Phrase.ends_operation (.inl closing) .comparison rest)
      rw [parseArguments]
      obtain ⟨_, next⟩ := Parsed.result_andThen body _
      refine next.trans ?_
      simp only [if_pos closing]
      rfl
  | cons second others ih =>
    cases separated with
    | @more _ _ ws _ comma mark separated =>
      have body := (inner first List.mem_cons_self).read_operation
        (Phrase.ends_operation (.inr mark) .comparison (ws ++ right :: rest))
      have later : (parseArguments f (given ++ [first.2]) (ws ++ right :: rest)).result =
          (ofCall f (given ++ [first.2] ++ (second :: others).map Prod.snd), rest) :=
        ih (fun p member => inner p (List.mem_cons_of_mem _ member)) separated
      have other : comma.kind ≠ .rightParen := by simp [mark]
      rw [List.append_assoc, List.cons_append, parseArguments]
      obtain ⟨_, next⟩ := Parsed.result_andThen body _
      refine next.trans ?_
      simp only [if_neg other, if_pos mark]
      rw [Parsed.result_widen, later]
      simp

theorem call {t left right : Token} {name : String} {f : Function}
    {arguments : List (List Token × Expr)} {ts : List Token} (mark : t.kind = .identifier name)
    (known : Function.lookup? name = some f) (opening : left.kind = .leftParen)
    (opens : ∀ p ∈ arguments, ∃ u us, p.1 = u :: us ∧ (Phrase.operation .comparison).opens u = true)
    (inner : ∀ p ∈ arguments, Reads (.operation .comparison) p.1 p.2)
    (separated : Token.Separated (arguments.map Prod.fst) ts) (closing : right.kind = .rightParen)
    (admitted : f.arity.Admits arguments.length) :
    Reads .word (t :: left :: ts ++ [right]) (.call f.name (arguments.map Prod.snd)) := by
  refine ⟨⟨t, _, name, rfl, mark⟩, fun rest ends => ?_⟩
  have called : ofCall f (arguments.map Prod.snd) = .ok (.call f.name (arguments.map Prod.snd)) :=
    ofCall_eq_ok_iff.mpr ⟨by rwa [List.length_map], rfl⟩
  rw [List.append_assoc, List.singleton_append, List.cons_append, List.cons_append, parseWord]
  simp only [if_pos opening, text_of_identifier mark]
  rw [Parsed.result_widen, parseCall.eq_def]
  simp only [known]
  cases arguments with
  | nil =>
    cases separated
    simp only [List.nil_append, if_pos closing]
    rw [Parsed.result_skip]
    exact congrArg (·, rest) called
  | cons first others =>
    obtain ⟨u, us, head, opening⟩ := opens first List.mem_cons_self
    obtain ⟨vs, rfl⟩ : ∃ vs, ts = u :: vs := by
      rw [List.map_cons, head] at separated
      exact separated.starts
    have other : u.kind ≠ .rightParen := by
      intro kind
      simp [Phrase.opens, kind] at opening
    simp only [List.cons_append, if_neg other]
    rw [← List.cons_append, Reads.arguments closing inner separated rest]
    exact congrArg (·, rest) called

theorem body {t : Token} {us : List Token} {e : Expr}
    (h : Reads (.operation .comparison) (t :: us) e) : (parseBody (t :: us)).outcome = .ok e := by
  have read := h.read_operation (.nil _)
  rw [List.append_nil] at read
  obtain ⟨_, next⟩ := Parsed.result_andThen read fun e after _ => endFormula e after
  exact congrArg Prod.fst next

theorem formula {t : Token} {us : List Token} {e : Expr}
    (h : Reads (.operation .comparison) (t :: us) e)
    (opening : (Phrase.operation .comparison).opens t = true) :
    Reads .formula (t :: us) e := by
  have other : t.kind ≠ .operator .equal := by
    intro kind
    simp [Phrase.opens, kind] at opening
  have kept : dropEqualSign (t :: us) = t :: us := if_neg other
  rw [Reads, parseTokens, kept]
  exact h.body

theorem equalSign {sign t : Token} {us : List Token} {e : Expr}
    (mark : sign.kind = .operator .equal) (h : Reads (.operation .comparison) (t :: us) e) :
    Reads .formula (sign :: t :: us) e := by
  have dropped : dropEqualSign (sign :: t :: us) = t :: us := if_pos mark
  rw [Reads, parseTokens, dropped]
  exact h.body

end Reads

/-- Every phrase that the grammar derives is read as the expression that it writes. The induction is
    on the derivation, with one case for each rule. -/
theorem reads_of_derives {p : Phrase} {ts : List Token} {e : Expr} (h : Derives p ts e) :
    Reads p ts e := by
  induction h with
  | formula body ih =>
    obtain ⟨t, us, rfl, opening⟩ := body.opens
    exact ih.formula opening
  | equalSign mark body ih =>
    obtain ⟨t, us, rfl, _⟩ := body.opens
    exact ih.equalSign mark
  | operand _ ih => exact ih.only
  | operation _ mark _ left right => exact left.operation mark right
  | unsigned only ih => exact ih.unsigned only.opens
  | signed mark _ ih => exact ih.signed mark
  | whole _ ih => exact ih.whole
  | percent _ mark ih => exact ih.percent mark
  | number mark finite => exact .number mark finite
  | truth mark => exact .truth mark
  | group opening _ closing ih => exact .group opening ih closing
  | word _ ih => exact ih.word
  | reference mark valid => exact .reference mark valid
  | call mark known opening inner separated closing admitted ih =>
    exact .call mark known opening (fun p member => (inner p member).opens) ih separated closing
      admitted

theorem parse_of_derives {text : String} {ts : List Token} {e : Expr}
    (tokens : Token.tokenize text = .ok ts) (h : Derives .formula ts e) : parse text = .ok e := by
  rw [parse, tokens]
  exact reads_of_derives h

end Expr

theorem Derives.formula_of_percent {ts : List Token} {e : Expr} (h : Derives .percent ts e) :
    Derives .formula ts e := by
  have power : Derives (.operation .power) ts e := .operand (.unsigned h)
  have product : Derives (.operation .product) ts e := .operand power
  have sum : Derives (.operation .sum) ts e := .operand product
  exact .formula (.operand sum)

/-- The parser gives an expression for some tokens just if the grammar derives it from them, and
    then it is the only one that the grammar derives. -/
theorem Expr.parseTokens_exact (ts : List Token) :
    (∀ e, Expr.parseTokens ts = .ok e ↔ Derives .formula ts e) ∧
      ∀ e e', Derives .formula ts e → Derives .formula ts e' → e = e' := by
  have complete : ∀ e, Derives .formula ts e → Expr.parseTokens ts = .ok e :=
    fun e derived => Expr.reads_of_derives derived
  refine ⟨fun e => ⟨Expr.derives_of_parseTokens, complete e⟩, fun e e' first second => ?_⟩
  have same := (complete e first).symm.trans (complete e' second)
  exact Except.ok.inj same

end Spreadsheet
