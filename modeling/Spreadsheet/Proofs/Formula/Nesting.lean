import Spreadsheet.Proofs.Formula.Adjacency

namespace Spreadsheet

namespace Token

/-- The depth of parentheses after a token; a closing one needs an open one. -/
def Kind.nest : Kind → Nat → Option Nat
  | .leftParen, depth => some (depth + 1)
  | .rightParen, 0 => none
  | .rightParen, depth + 1 => some depth
  | _, depth => some depth

def nest (depth : Nat) (ts : List Token) : Option Nat := ts.foldlM (fun n t => t.kind.nest n) depth

variable {depth : Nat} {t : Token} {ts us : List Token}

theorem nest_append (depth : Nat) (ts us : List Token) :
    nest depth (ts ++ us) = (nest depth ts).bind (nest · us) := List.foldlM_append

theorem nest_cons (depth : Nat) (t : Token) (ts : List Token) :
    nest depth (t :: ts) = (t.kind.nest depth).bind (nest · ts) := List.foldlM_cons

theorem Kind.nest_eq {kind : Kind} (left : kind ≠ .leftParen) (right : kind ≠ .rightParen)
    (depth : Nat) : kind.nest depth = some depth := by
  unfold nest
  split
  · exact absurd rfl left
  · exact absurd rfl right
  · exact absurd rfl right
  · rfl

theorem Kind.nest_succ {kind : Kind} {after : Nat} (h : kind.nest depth = some after) :
    kind.nest (depth + 1) = some (after + 1) := by
  cases kind with
  | rightParen =>
    cases depth with
    | zero => cases h
    | succ depth =>
      cases h
      rfl
  | _ =>
    cases h
    rfl

theorem nest_succ {after : Nat} (h : nest depth ts = some after) :
    nest (depth + 1) ts = some (after + 1) := by
  induction ts generalizing depth with
  | nil =>
    cases h
    rfl
  | cons t ts ih =>
    rw [nest_cons] at h ⊢
    obtain ⟨middle, first, rest⟩ := Option.bind_eq_some_iff.mp h
    rw [Kind.nest_succ first]
    exact ih rest

/-- Tokens that close what they open, and nothing else. -/
def Closed (ts : List Token) : Prop := ∀ depth, nest depth ts = some depth

theorem closed_nil : Closed [] := fun _ => rfl

theorem closed_singleton (left : t.kind ≠ .leftParen) (right : t.kind ≠ .rightParen) :
    Closed [t] := by
  intro depth
  rw [nest_cons, Kind.nest_eq left right]
  rfl

theorem Closed.append (first : Closed ts) (second : Closed us) : Closed (ts ++ us) := by
  intro depth
  rw [nest_append, first, Option.bind_some, second]

theorem Closed.cons (left : t.kind ≠ .leftParen) (right : t.kind ≠ .rightParen)
    (rest : Closed ts) : Closed (t :: ts) :=
  (closed_singleton left right).append rest

theorem Closed.group {left right : Token} (opening : left.kind = .leftParen)
    (inner : Closed ts) (closing : right.kind = .rightParen) :
    Closed (left :: ts ++ [right]) := by
  intro depth
  rw [List.cons_append, nest_cons, opening, Kind.nest, Option.bind_some, nest_append, inner,
    Option.bind_some, nest_cons, closing]
  rfl

theorem Separated.closed {parts : List (List Token)} (h : Separated parts ts)
    (inner : ∀ us ∈ parts, Closed us) : Closed ts := by
  induction h with
  | none => exact closed_nil
  | one ts => exact inner ts List.mem_cons_self
  | more mark others ih =>
    obtain ⟨first, rest⟩ := List.forall_mem_cons.mp inner
    exact first.append (.cons (by simp [mark]) (by simp [mark]) (ih rest))

theorem Closed.not_split {left right : Token} {before after : List Token}
    (opening : left.kind = .leftParen) (inner : Closed ts)
    (whole : left :: ts ++ [right] = before ++ after) (some : before ≠ []) (more : after ≠ []) :
    ¬ Closed before := by
  intro closed
  obtain ⟨first, before, rfl⟩ := List.exists_cons_of_ne_nil some
  obtain rfl | ⟨after, last, rfl⟩ := List.eq_nil_or_concat after
  · exact absurd rfl more
  rw [List.cons_append, List.cons_append, List.cons.injEq, List.concat_eq_append,
    ← List.append_assoc] at whole
  obtain ⟨rfl, whole⟩ := whole
  obtain ⟨rfl, -⟩ := List.append_inj' whole rfl
  obtain ⟨depth, inside, -⟩ :=
    Option.bind_eq_some_iff.mp ((nest_append 0 before after).symm.trans (inner 0))
  have outside := closed 0
  rw [nest_cons, opening, Kind.nest, Option.bind_some, nest_succ inside] at outside
  cases outside

end Token

open Token

theorem Level.opOfToken?_not_paren {level : Level} {t : Token} {op : BinaryOp}
    (mark : level.opOfToken? t = some op) : t.kind ≠ .leftParen ∧ t.kind ≠ .rightParen := by
  obtain ⟨o, kind, -⟩ := Level.opOfToken?_eq_some_iff.mp mark
  exact ⟨by simp [kind], by simp [kind]⟩

/-- The parentheses of a phrase belong together. -/
theorem Derives.closed {p : Phrase} {ts : List Token} {e : Expr} (h : Derives p ts e) :
    Closed ts := by
  induction h with
  | formula _ ih | operand _ ih | unsigned _ ih | whole _ ih | word _ ih => exact ih
  | equalSign mark _ ih => exact .cons (by simp [mark]) (by simp [mark]) ih
  | operation _ mark _ ih ih' =>
    obtain ⟨left, right⟩ := Level.opOfToken?_not_paren mark
    exact ih.append (.cons left right ih')
  | signed mark _ ih =>
    rcases Sign.kind_of_ofToken? mark with kind | kind
    all_goals exact .cons (by simp [kind]) (by simp [kind]) ih
  | percent _ mark ih => exact ih.append (closed_singleton (by simp [mark]) (by simp [mark]))
  | number mark | truth mark | reference mark =>
    exact closed_singleton (by simp [mark]) (by simp [mark])
  | group opening _ closing ih => exact ih.group opening closing
  | @call t left right _ _ arguments ts mark _ opening _ separated closing _ ih =>
    have inside : Closed ts := separated.closed (by
      intro us member
      obtain ⟨p, argument, rfl⟩ := List.mem_map.mp member
      exact ih p argument)
    exact .cons (by simp [mark]) (by simp [mark]) (inside.group opening closing)

end Spreadsheet
