import Spreadsheet.Formula.Grammar
import Spreadsheet.Proofs.Formula.LocalFailure
import Spreadsheet.Proofs.Formula.TextFailure

namespace Spreadsheet

namespace Parsed

variable {α : Type} {n : Nat}

/-- What was read and what is left are the tokens. A success has read tokens that satisfy `P`, and a
    failure concerns the tokens alone. -/
def Splits (p : Parsed n α) (ts : List Token) (P : List Token → α → Prop) : Prop :=
  ∃ us, ts = us ++ p.rest ∧
    match p.outcome with
    | .ok x => P us x
    | .error f => f.OfTokens ts

variable {ts : List Token} {P : List Token → α → Prop}

theorem Splits.keep {x : α} (holds : P [] x) : (Parsed.keep (.ok x) ts).Splits ts P :=
  ⟨[], rfl, holds⟩

theorem Splits.refuse {f : Failure} (h : f.IsTextual) :
    (Parsed.keep (.error f : Except Failure α) ts).Splits ts P := ⟨[], rfl, .inl h⟩

theorem Splits.skip {outcome : Except Failure α} {t : Token}
    (fails : Fails (fun f => f.IsTextual ∨ f.OfLongRow t.text) outcome)
    (holds : ∀ x, outcome = .ok x → P [t] x) : (Parsed.skip outcome t ts).Splits (t :: ts) P := by
  refine ⟨[t], rfl, ?_⟩
  cases outcome with
  | ok x => exact holds x rfl
  | error f => exact (fails f rfl).imp_right fun row => ⟨t, List.mem_cons_self, row⟩

theorem Splits.imp {p : Parsed n α} {Q : List Token → α → Prop} (h : p.Splits ts P)
    (weaker : ∀ us x, P us x → Q us x) : p.Splits ts Q := by
  obtain ⟨us, read, outcome⟩ := h
  refine ⟨us, read, ?_⟩
  cases result : p.outcome with
  | ok x =>
    rw [result] at outcome
    exact weaker us x outcome
  | error f =>
    rw [result] at outcome
    exact outcome

theorem Splits.after {m : Nat} {p : Parsed n α} {Q : List Token → α → Prop} (front : List Token)
    (le : n ≤ m) (h : p.Splits ts P) (longer : ∀ us x, P us x → Q (front ++ us) x) :
    (p.widen le).Splits (front ++ ts) Q := by
  obtain ⟨us, read, outcome⟩ := h.imp longer
  refine ⟨front ++ us, by rw [List.append_assoc, read]; rfl, ?_⟩
  change match p.outcome with
    | .ok x => Q (front ++ us) x
    | .error f => f.OfTokens (front ++ ts)
  cases result : p.outcome with
  | ok x =>
    rw [result] at outcome
    exact outcome
  | error f =>
    rw [result] at outcome
    exact Failure.OfTokens.mono outcome (List.subset_append_right _ _)

theorem Splits.map {β : Type} {p : Parsed n α} {Q : List Token → β → Prop} {g : α → β}
    (h : p.Splits ts P) (image : ∀ us x, P us x → Q us (g x)) : (p.map g).Splits ts Q := by
  obtain ⟨us, read, outcome⟩ := h
  refine ⟨us, read, ?_⟩
  unfold Parsed.map
  cases result : p.outcome with
  | ok x =>
    rw [result] at outcome
    exact image us x outcome
  | error f =>
    rw [result] at outcome
    exact outcome

theorem Splits.andThen {β : Type} {p : Parsed n α} {Q : List Token → β → Prop}
    {g : α → (rest : List Token) → rest.length ≤ n → Parsed rest.length β} (first : p.Splits ts P)
    (next : ∀ us x rest h, ts = us ++ rest → P us x →
      (g x rest h).Splits rest fun vs y => Q (us ++ vs) y) :
    (p.andThen g).Splits ts Q := by
  obtain ⟨us, read, outcome⟩ := first
  obtain ⟨result, rest, bound⟩ := p
  cases result with
  | error f => exact ⟨us, read, outcome⟩
  | ok x =>
    have later := next us x rest bound read outcome
    have whole : ts = us ++ rest := read
    rw [whole]
    exact later.after us bound fun _ _ holds => holds

theorem Splits.isSuffix {p : Parsed n α} (h : p.Splits ts P) : p.rest <:+ ts := by
  obtain ⟨us, read, -⟩ := h
  exact ⟨us, read.symm⟩

theorem Splits.exists_of_ok {p : Parsed n α} {x : α} (h : p.Splits ts P)
    (success : p.outcome = .ok x) : ∃ us, ts = us ++ p.rest ∧ P us x := by
  obtain ⟨us, read, outcome⟩ := h
  rw [success] at outcome
  exact ⟨us, read, outcome⟩

end Parsed

namespace Address

theorem parse?_eq_some_iff {text : String} {a : Address} :
    parse? text = .ok (some a) ↔ parse text = .ok a := by
  unfold parse?
  split
  · rename_i b outcome
    simp [outcome]
  · rename_i failure outcome
    rw [outcome]
    split <;> simp

end Address

namespace Expr

theorem ofNumber_eq_ok {text : String} {position : Nat} {e : Expr}
    (h : ofNumber text position = .ok e) :
    (Numeral.floatOfText text).isFinite = true ∧ e = .const (Numeral.floatOfText text) := by
  simp only [ofNumber] at h
  split at h
  · rename_i finite
    cases h
    exact ⟨finite, rfl⟩
  · cases h

theorem ofWord_eq_ok {text : String} {position : Nat} {e : Expr}
    (h : ofWord text position = .ok e) : ∃ a, Address.parse text = .ok a ∧ e = .ref ⟨a, text⟩ := by
  unfold ofWord at h
  split at h
  · cases h
  · cases h
  · rename_i a outcome
    cases h
    exact ⟨a, Address.parse?_eq_some_iff.mp outcome, rfl⟩

theorem ofCall_eq_ok_iff {f : Function} {arguments : List Expr} {e : Expr} :
    ofCall f arguments = .ok e ↔
      f.arity.Admits arguments.length ∧ e = .call f.name arguments := by
  unfold ofCall Arity.check
  split
  · rename_i admitted
    constructor
    · intro h
      cases h
      exact ⟨admitted, rfl⟩
    · rintro ⟨_, rfl⟩
      rfl
  · rename_i refused
    constructor
    · intro h
      cases h
    · rintro ⟨admitted, _⟩
      exact absurd admitted refused

end Expr

/-- Some arguments of a call after those that are given, and the parenthesis that ends it. -/
def EndsCall (f : Function) (given : List Expr) (arguments : List (List Token × Expr))
    (us : List Token) (e : Expr) : Prop :=
  (∀ p ∈ arguments, Derives (.operation .comparison) p.1 p.2) ∧
    f.arity.Admits (given ++ arguments.map Prod.snd).length ∧
    e = .call f.name (given ++ arguments.map Prod.snd) ∧
    ∃ ts right, us = ts ++ [right] ∧ right.kind = .rightParen ∧
      Token.Separated (arguments.map Prod.fst) ts

theorem EndsCall.derives {t left : Token} {name : String} {f : Function}
    {arguments : List (List Token × Expr)} {us : List Token} {e : Expr}
    (mark : t.kind = .identifier name) (known : Function.lookup? name = some f)
    (opening : left.kind = .leftParen) (h : EndsCall f [] arguments us e) :
    Derives .word (t :: left :: us) e := by
  obtain ⟨inner, admitted, rfl, ts, right, rfl, closing, separated⟩ := h
  rw [List.nil_append, List.length_map] at admitted
  exact .call mark known opening inner separated closing admitted

theorem EndsCall.none {f : Function} {e : Expr} {right : Token}
    (closing : right.kind = .rightParen) (called : Expr.ofCall f [] = .ok e) :
    EndsCall f [] [] [right] e := by
  obtain ⟨admitted, rfl⟩ := Expr.ofCall_eq_ok_iff.mp called
  exact ⟨by simp, admitted, rfl, [], right, rfl, closing, .none⟩

theorem EndsCall.one {f : Function} {given : List Expr} {x e : Expr} {us : List Token}
    {right : Token} (first : Derives (.operation .comparison) us x)
    (closing : right.kind = .rightParen) (called : Expr.ofCall f (given ++ [x]) = .ok e) :
    EndsCall f given [(us, x)] (us ++ [right]) e := by
  obtain ⟨admitted, rfl⟩ := Expr.ofCall_eq_ok_iff.mp called
  refine ⟨?_, admitted, rfl, us, right, rfl, closing, .one us⟩
  intro p member
  rw [List.mem_singleton.mp member]
  exact first

theorem EndsCall.more {f : Function} {given : List Expr} {x e : Expr} {us vs : List Token}
    {comma : Token} {second : List Token × Expr} {others : List (List Token × Expr)}
    (first : Derives (.operation .comparison) us x) (mark : comma.kind = .comma)
    (h : EndsCall f (given ++ [x]) (second :: others) vs e) :
    EndsCall f given ((us, x) :: second :: others) (us ++ comma :: vs) e := by
  obtain ⟨inner, admitted, rfl, ts, right, rfl, closing, separated⟩ := h
  have arguments : given ++ [x] ++ (second :: others).map Prod.snd =
      given ++ ((us, x) :: second :: others).map Prod.snd := by simp
  rw [arguments] at admitted ⊢
  refine ⟨?_, admitted, rfl, us ++ comma :: ts, right, by simp, closing, .more mark separated⟩
  intro p member
  rcases List.mem_cons.mp member with rfl | member
  · exact first
  · exact inner p member

namespace Expr

theorem withPercents_splits (e : Expr) (ts : List Token) :
    (e.withPercents ts).Splits ts fun us x =>
      ∀ before, Derives .percent before e → Derives .percent (before ++ us) x := by
  induction ts generalizing e with
  | nil =>
    refine .keep fun before operand => ?_
    rw [List.append_nil]
    exact operand
  | cons t ts ih =>
    unfold withPercents
    split
    · rename_i mark
      refine (ih (.percent e)).after [t] _ fun us x more before operand => ?_
      have longer := more _ (operand.percent mark)
      rwa [List.append_assoc] at longer
    · refine .keep fun before operand => ?_
      rw [List.append_nil]
      exact operand

theorem closeGroup_splits (e : Expr) (ts : List Token) :
    (closeGroup e ts).Splits ts fun us x =>
      x = e ∧ ∃ right, us = [right] ∧ right.kind = .rightParen := by
  cases ts with
  | nil => exact .refuse trivial
  | cons t ts =>
    simp only [closeGroup]
    split
    · rename_i closing
      refine .skip (.ok _) fun x same => ?_
      cases same
      exact ⟨rfl, t, rfl, closing⟩
    · exact .refuse trivial

theorem text_of_identifier {t : Token} {name : String} (mark : t.kind = .identifier name) :
    t.text = name := by
  unfold Token.text
  rw [mark]
  rfl

/-- What is read after a left operand of a level makes a longer operation of it. -/
def Continues (level : Level) (left : Expr) (us : List Token) (x : Expr) : Prop :=
  ∀ before, Derives (.operation level) before left → Derives (.operation level) (before ++ us) x

variable {level : Level} {left e : Expr} {t next : Token} {name : String} {op : BinaryOp}
  {f : Function} {given : List Expr} {ts rest : List Token}

theorem Continues.refl (level : Level) (left : Expr) : Continues level left [] left := by
  intro before derived
  rw [List.append_nil]
  exact derived

theorem Continues.operation {right x : Expr} {us vs : List Token}
    (mark : level.opOfToken? t = some op) (second : Derives level.operand us right)
    (more : Continues level (.binary op left right) vs x) :
    Continues level left (t :: (us ++ vs)) x := by
  intro before first
  have longer := more _ (.operation first mark second)
  rwa [List.append_assoc] at longer

theorem parseOperation_splits (operand : (parseOperand level ts).Splits ts (Derives level.operand))
    (chain : ∀ left rest, rest.length ≤ ts.length →
      (parseChain level left rest).Splits rest (Continues level left)) :
    (parseOperation level ts).Splits ts (Derives (.operation level)) := by
  rw [parseOperation]
  refine operand.andThen fun us left rest le _ first => ?_
  exact (chain left rest le).imp fun vs x more => more us (.operand first)

theorem parseChain_splits (mark : level.opOfToken? t = some op)
    (operand : (parseOperand level rest).Splits rest (Derives level.operand))
    (chain : ∀ right after, after.length ≤ rest.length →
      (parseChain level (.binary op left right) after).Splits after
        (Continues level (.binary op left right))) :
    (parseChain level left (t :: rest)).Splits (t :: rest) (Continues level left) := by
  have others : ((parseOperand level rest).andThen fun right after _ =>
      parseChain level (.binary op left right) after).Splits rest
        fun us x => Continues level left (t :: us) x := by
    refine operand.andThen fun us right after le _ second => ?_
    exact (chain right after le).imp fun vs x more => more.operation mark second
  rw [parseChain]
  simp only [mark]
  exact others.after [t] _ fun us x holds => holds

theorem parsePercent_splits (primary : (parsePrimary ts).Splits ts (Derives .primary)) :
    (parsePercent ts).Splits ts (Derives .percent) := by
  rw [parsePercent]
  refine primary.andThen fun us e rest _ _ only => ?_
  exact (withPercents_splits e rest).imp fun vs x more => more us (.whole only)

theorem parseGroup_splits (opening : t.kind = .leftParen)
    (operation : (parseOperation .comparison rest).Splits rest
      (Derives (.operation .comparison))) :
    (parsePrimary (t :: rest)).Splits (t :: rest) (Derives .primary) := by
  have inside : ((parseOperation .comparison rest).andThen fun e after _ =>
      closeGroup e after).Splits rest fun us x => Derives .primary (t :: us) x := by
    refine operation.andThen fun us e after _ _ inner => ?_
    refine (closeGroup_splits e after).imp ?_
    rintro vs x ⟨rfl, right, rfl, closing⟩
    exact .group opening inner closing
  rw [parsePrimary]
  simp only [opening]
  exact inside.after [t] _ fun us x holds => holds

/-- The tokens start with a name, and if so, those that were read are a word. -/
def ReadsWord (ts us : List Token) (x : Expr) : Prop :=
  ∀ t name, ts.head? = some t → t.kind = .identifier name → Derives .word us x

theorem reference_splits (t : Token) (rest : List Token) :
    (Parsed.skip (ofWord t.text t.position) t rest).Splits (t :: rest)
      (ReadsWord (t :: rest)) := by
  refine .skip (ofWord_fails _ _) ?_
  intro x outcome u name head mark
  cases head
  rw [text_of_identifier mark] at outcome
  obtain ⟨a, valid, rfl⟩ := ofWord_eq_ok outcome
  exact .reference mark valid

theorem parseWord_splits (opening : next.kind = .leftParen)
    (call : (parseCall t.text rest).Splits rest fun us x =>
      ∃ f arguments, Function.lookup? t.text = some f ∧ EndsCall f [] arguments us x) :
    (parseWord (t :: next :: rest)).Splits (t :: next :: rest) (ReadsWord (t :: next :: rest)) := by
  rw [parseWord, if_pos opening]
  refine call.after [t, next] _ ?_
  rintro us x ⟨f, arguments, known, ends⟩ u name head mark
  cases head
  rw [text_of_identifier mark] at known
  exact ends.derives mark known opening

theorem parseArguments_splits
    (operation : (parseOperation .comparison ts).Splits ts (Derives (.operation .comparison)))
    (arguments : ∀ e (comma : Token) after, (comma :: after).length ≤ ts.length →
      (parseArguments f (given ++ [e]) after).Splits after fun us x =>
        ∃ first others, EndsCall f (given ++ [e]) (first :: others) us x) :
    (parseArguments f given ts).Splits ts fun us x =>
      ∃ first others, EndsCall f given (first :: others) us x := by
  rw [parseArguments]
  refine operation.andThen fun us e rest le _ first => ?_
  cases rest with
  | nil => exact .refuse trivial
  | cons t after =>
    dsimp only
    split
    · rename_i closing
      refine .skip ((ofCall_fails _ _).mono fun _ => .inl) fun x called => ?_
      exact ⟨_, [], .one first closing called⟩
    · split
      · rename_i mark
        refine (arguments e t after le).after [t] _ ?_
        rintro vs x ⟨second, others, ends⟩
        exact ⟨_, _, ends.more first mark⟩
      · exact .refuse trivial

/-- What each parsing function reads is derived by the grammar as the expression that it gives. The
    induction is on the recursion of the parser, with one case for each branch of it. -/
theorem parse_splits :
    (∀ level ts, (parseOperation level ts).Splits ts (Derives (.operation level))) ∧
      (∀ level left ts, (parseChain level left ts).Splits ts (Continues level left)) ∧
      (∀ level ts, (parseOperand level ts).Splits ts (Derives level.operand)) ∧
      (∀ ts, (parseSigned ts).Splits ts (Derives .signed)) ∧
      (∀ ts, (parsePercent ts).Splits ts (Derives .percent)) ∧
      (∀ ts, (parsePrimary ts).Splits ts (Derives .primary)) ∧
      (∀ ts, (parseWord ts).Splits ts (ReadsWord ts)) ∧
      (∀ name ts, (parseCall name ts).Splits ts fun us x =>
        ∃ f arguments, Function.lookup? name = some f ∧ EndsCall f [] arguments us x) ∧
      (∀ f given ts, (parseArguments f given ts).Splits ts fun us x =>
        ∃ first others, EndsCall f given (first :: others) us x) := by
  apply parseOperation.mutual_induct
  case case1 =>
    intro level ts operand chain
    exact parseOperation_splits operand chain
  case case2 =>
    intro level left
    rw [parseChain]
    exact .keep (.refl level left)
  case case3 =>
    intro level left t rest mark
    rw [parseChain]
    simp only [mark]
    exact .keep (.refl level left)
  case case4 =>
    intro level left t rest op mark operand chain
    exact parseChain_splits mark operand chain
  case case5 | case6 | case7 =>
    intro ts operation
    rw [parseOperand]
    exact operation
  case case8 =>
    intro ts signed
    rw [parseOperand]
    exact signed
  case case9 =>
    intro percent
    rw [parseSigned]
    exact percent.imp fun us x only => .unsigned only
  case case10 =>
    intro t rest sign mark signed
    rw [parseSigned]
    simp only [mark]
    exact (signed.map fun us x operand => Derives.signed mark operand).after [t] _
      fun us x holds => holds
  case case11 =>
    intro t rest mark percent
    rw [parseSigned]
    simp only [mark]
    exact percent.imp fun us x only => .unsigned only
  case case12 =>
    intro ts primary
    exact parsePercent_splits primary
  case case13 =>
    rw [parsePrimary]
    exact .refuse trivial
  case case14 =>
    intro t rest text mark
    rw [parsePrimary]
    simp only [mark]
    refine .skip ((ofNumber_fails _ _).mono fun _ => .inl) fun x outcome => ?_
    obtain ⟨finite, rfl⟩ := ofNumber_eq_ok outcome
    exact .number mark finite
  case case15 =>
    intro t rest b mark
    rw [parsePrimary]
    simp only [mark]
    refine .skip (.ok _) fun x outcome => ?_
    cases outcome
    exact .truth mark
  case case16 =>
    intro t rest name mark word
    rw [parsePrimary]
    simp only [mark]
    exact word.imp fun us x only => .word (only t name rfl mark)
  case case17 =>
    intro t rest opening operation
    exact parseGroup_splits opening operation
  case case18 =>
    intro t rest number boolean identifier paren
    rw [parsePrimary]
    split
    · exact absurd ‹_› (number _)
    · exact absurd ‹_› (boolean _)
    · exact absurd ‹_› (identifier _)
    · exact absurd ‹_› paren
    · exact .refuse trivial
  case case19 =>
    rw [parseWord]
    exact .refuse trivial
  case case20 =>
    intro t
    rw [parseWord]
    exact reference_splits t []
  case case21 =>
    intro t next rest opening call
    exact parseWord_splits opening call
  case case22 =>
    intro t next rest opening
    rw [parseWord, if_neg opening]
    exact reference_splits t (next :: rest)
  case case23 =>
    intro name ts unknown
    rw [parseCall]
    simp only [unknown]
    exact .refuse trivial
  case case24 =>
    intro name f known arguments
    rw [parseCall]
    simp only [known]
    exact arguments.imp fun us x ⟨first, others, ends⟩ => ⟨f, _, rfl, ends⟩
  case case25 =>
    intro name f known t rest closing
    rw [parseCall]
    simp only [known, if_pos closing]
    refine .skip ((ofCall_fails _ _).mono fun _ => .inl) fun x called => ?_
    exact ⟨f, [], rfl, .none closing called⟩
  case case26 =>
    intro name f known t rest closing arguments
    rw [parseCall]
    simp only [known, if_neg closing]
    exact arguments.imp fun us x ⟨first, others, ends⟩ => ⟨f, _, rfl, ends⟩
  case case27 =>
    intro f given ts operation arguments
    exact parseArguments_splits operation fun e comma after le => arguments e [] comma after le

theorem endFormula_splits (e : Expr) (ts : List Token) :
    (endFormula e ts).Splits ts fun us x => us = [] ∧ ts = [] ∧ x = e := by
  cases ts with
  | nil => exact .keep ⟨rfl, rfl, rfl⟩
  | cons t ts => exact .refuse trivial

theorem parseBody_splits (ts : List Token) :
    (parseBody ts).Splits ts fun us x => us = ts ∧ Derives (.operation .comparison) us x := by
  cases ts with
  | nil => exact .refuse trivial
  | cons t ts =>
    refine (parse_splits.1 .comparison (t :: ts)).andThen fun us e after _ read body => ?_
    refine (endFormula_splits e after).imp ?_
    rintro vs x ⟨rfl, rfl, rfl⟩
    rw [List.append_nil] at read ⊢
    exact ⟨read.symm, body⟩

theorem dropEqualSign_isSuffix (ts : List Token) : dropEqualSign ts <:+ ts := by
  cases ts with
  | nil => exact List.suffix_rfl
  | cons t ts =>
    simp only [dropEqualSign]
    split
    · exact List.suffix_cons t ts
    · exact List.suffix_rfl

theorem parseTokens_fails (ts : List Token) : Fails (Failure.OfTokens ts) (parseTokens ts) := by
  intro f h
  obtain ⟨us, _, outcome⟩ := parseBody_splits (dropEqualSign ts)
  unfold parseTokens at h
  rw [h] at outcome
  exact Failure.OfTokens.mono outcome (dropEqualSign_isSuffix ts).subset

theorem parse_failsLocally (text : String) : FailsLocally (parse text) :=
  FailsLocally.bind ((Token.tokenize_fails text).mono fun _ => Failure.IsTextual.isLocal)
    fun ts => (parseTokens_fails ts).mono fun _ => Failure.OfTokens.isLocal

theorem derives_of_parseTokens {ts : List Token} {e : Expr} (h : parseTokens ts = .ok e) :
    Derives .formula ts e := by
  obtain ⟨_, -, rfl, body⟩ := (parseBody_splits (dropEqualSign ts)).exists_of_ok h
  cases ts with
  | nil => exact .formula body
  | cons t ts =>
    simp only [dropEqualSign] at body
    split at body
    · rename_i mark
      exact .equalSign mark body
    · exact .formula body

theorem exists_derives_of_parse {text : String} {e : Expr} (h : parse text = .ok e) :
    ∃ ts, Token.tokenize text = .ok ts ∧ Derives .formula ts e := by
  unfold parse at h
  cases tokens : Token.tokenize text with
  | error f =>
    rw [tokens] at h
    cases h
  | ok ts =>
    rw [tokens] at h
    exact ⟨ts, rfl, derives_of_parseTokens h⟩

end Expr

end Spreadsheet
