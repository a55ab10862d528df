import Spreadsheet.Formula.Eval

namespace Spreadsheet

namespace Reading

variable {α β : Type} {r : Reading α} {f : α → Reading β} {a : Address} {x : α}

theorem andThen_of_ok (given : r.outcome = .ok x) :
    r.andThen f = ⟨(f x).outcome, r.reads ++ (f x).reads⟩ := by
  simp only [andThen, given]

theorem andThen_of_error {e : Failure} (failed : r.outcome = .error e) :
    r.andThen f = ⟨.error e, r.reads⟩ := by
  simp only [andThen, failed]

theorem mem_reads_andThen (h : a ∈ r.reads) : a ∈ (r.andThen f).reads := by
  cases outcome : r.outcome with
  | error e =>
    rw [andThen_of_error outcome]
    exact h
  | ok x =>
    rw [andThen_of_ok outcome]
    exact List.mem_append_left _ h

variable {read : (Address → Except Failure Number) → Reading α}
  {next : α → (Address → Except Failure Number) → Reading β} {as bs : List Address}

/-- With any values of the cells, what is read are some of the addresses, in their order, and values
    that agree on what is read give the same reading. -/
structure Follows (read : (Address → Except Failure Number) → Reading α) (as : List Address) :
    Prop where
  inOrder : ∀ v, (read v).reads.Sublist as
  determined : ∀ v w, (∀ a ∈ (read v).reads, w a = v a) → read w = read v

theorem Follows.ofOutcome (outcome : Except Failure α) :
    Follows (fun _ => Reading.ofOutcome outcome) as where
  inOrder _ := List.nil_sublist as
  determined _ _ _ := rfl

theorem Follows.mono (h : Follows read as) (part : as.Sublist bs) : Follows read bs where
  inOrder v := (h.inOrder v).trans part
  determined := h.determined

theorem Follows.address (a : Address) (check : Number → Except Failure α) :
    Follows (fun v => ⟨(v a).bind check, [a]⟩) [a] where
  inOrder _ := List.Sublist.refl [a]
  determined v w same := by
    have here := same a List.mem_cons_self
    simp only [here]

theorem Follows.andThen (first : Follows read as) (later : ∀ x, Follows (next x) bs) :
    Follows (fun v => (read v).andThen fun x => next x v) (as ++ bs) where
  inOrder v := by
    cases outcome : (read v).outcome with
    | error e =>
      rw [andThen_of_error outcome]
      exact (first.inOrder v).trans (List.sublist_append_left as bs)
    | ok x =>
      rw [andThen_of_ok outcome]
      exact (first.inOrder v).append ((later x).inOrder v)
  determined v w same := by
    have before : read w = read v :=
      first.determined v w fun a member => same a (mem_reads_andThen member)
    cases outcome : (read v).outcome with
    | error e => simp only [before, andThen_of_error outcome]
    | ok x =>
      have after : next x w = next x v := by
        apply (later x).determined
        intro a member
        apply same
        rw [andThen_of_ok outcome]
        exact List.mem_append_right _ member
      simp only [before, andThen_of_ok outcome, after]

theorem Follows.check (h : Follows read as) (check : α → Except Failure β) :
    Follows (fun v => (read v).andThen fun x => .ofOutcome (check x)) as := by
  have none : ∀ x, Follows (fun _ => Reading.ofOutcome (check x)) [] := fun x => .ofOutcome (check x)
  have both := h.andThen none
  rwa [List.append_nil] at both

/-- Whenever there is a result, all the addresses have been read. -/
def Exhausts (read : (Address → Except Failure Number) → Reading α) (as : List Address) : Prop :=
  ∀ v x, (read v).outcome = .ok x → (read v).reads = as

theorem Exhausts.andThen (first : Exhausts read as) (later : ∀ x, Exhausts (next x) bs) :
    Exhausts (fun v => (read v).andThen fun x => next x v) (as ++ bs) := by
  intro v y given
  cases outcome : (read v).outcome with
  | error e =>
    simp only [andThen_of_error outcome] at given
    cases given
  | ok x =>
    simp only [andThen_of_ok outcome] at given
    simp only [andThen_of_ok outcome, first v x outcome, later x v y given]

theorem Exhausts.check (h : Exhausts read as) (check : α → Except Failure β) :
    Exhausts (fun v => (read v).andThen fun x => .ofOutcome (check x)) as := by
  have none : ∀ x, Exhausts (fun _ => Reading.ofOutcome (check x)) [] := fun x v y given => rfl
  have both := h.andThen none
  rwa [List.append_nil] at both

end Reading

namespace Expr

open Reading

mutual

def calls : Expr → List String
  | const _ => []
  | ref _ => []
  | percent e => e.calls
  | unary _ e => e.calls
  | binary _ l r => l.calls ++ r.calls
  | call name es => name :: callsOfAll es

def callsOfAll : List Expr → List String
  | [] => []
  | e :: es => e.calls ++ callsOfAll es

end

mutual

theorem follows_eval (e : Expr) :
    Follows (fun value => e.eval value) (e.references.map (·.address)) := by
  cases e with
  | const x => exact .ofOutcome _
  | ref r => exact .address r.address _
  | percent e =>
    simp only [eval]
    exact (follows_eval e).check Number.percent
  | unary s e =>
    simp only [eval]
    exact (follows_eval e).check fun x => .ok (s.apply x)
  | binary op l r =>
    simp only [eval, references, List.map_append]
    apply (follows_eval l).andThen
    intro x
    exact (follows_eval r).check fun y => (op.apply x y).bind Number.checked
  | call name es =>
    simp only [eval]
    cases Function.named? name with
    | none => exact .ofOutcome _
    | some f =>
      cases f with
      | aggregate a => exact (follows_evalAll es).check fun xs => (a.apply xs).bind Number.checked
      | conditional => exact (follows_evalChosen es).check Number.checked

theorem follows_evalAll (es : List Expr) :
    Follows (fun value => evalAll value es) ((referencesOfAll es).map (·.address)) := by
  cases es with
  | nil =>
    simp only [evalAll]
    exact .ofOutcome _
  | cons e es =>
    simp only [evalAll, referencesOfAll, List.map_append]
    apply (follows_eval e).andThen
    intro x
    exact (follows_evalAll es).check fun xs => .ok (x :: xs)

theorem follows_evalChosen (es : List Expr) :
    Follows (fun value => evalChosen value es) ((referencesOfAll es).map (·.address)) := by
  match es with
  | [] => exact .ofOutcome _
  | [_] => exact .ofOutcome _
  | [c, yes] =>
    simp only [evalChosen, referencesOfAll, List.map_append]
    apply (follows_eval c).andThen
    intro x
    by_cases zero : x.isZero = true
    · simp only [zero, if_true]
      exact .ofOutcome _
    · simp only [zero]
      exact (follows_eval yes).mono (List.sublist_append_left _ _)
  | [c, yes, no] =>
    simp only [evalChosen, referencesOfAll, List.map_append]
    apply (follows_eval c).andThen
    intro x
    by_cases zero : x.isZero = true
    · simp only [zero, if_true]
      apply (follows_eval no).mono
      exact (List.sublist_append_left _ _).trans (List.sublist_append_right _ _)
    · simp only [zero]
      exact (follows_eval yes).mono (List.sublist_append_left _ _)
  | _ :: _ :: _ :: _ :: _ => exact .ofOutcome _

end

mutual

theorem exhausts_eval (e : Expr) (none : "IF" ∉ e.calls) :
    Exhausts (fun value => e.eval value) (e.references.map (·.address)) := by
  cases e with
  | const x => exact fun value y given => rfl
  | ref r => exact fun value y given => rfl
  | percent e =>
    simp only [eval]
    exact (exhausts_eval e none).check Number.percent
  | unary s e =>
    simp only [eval]
    exact (exhausts_eval e none).check fun x => .ok (s.apply x)
  | binary op l r =>
    simp only [calls, List.mem_append, not_or] at none
    simp only [eval, references, List.map_append]
    apply (exhausts_eval l none.1).andThen
    intro x
    exact (exhausts_eval r none.2).check fun y => (op.apply x y).bind Number.checked
  | call name es =>
    simp only [calls, List.mem_cons, not_or] at none
    simp only [eval]
    cases found : Function.named? name with
    | none => exact fun value y given => nomatch given
    | some f =>
      cases f with
      | aggregate a =>
        exact (exhausts_evalAll es none.2).check fun xs => (a.apply xs).bind Number.checked
      | conditional => exact absurd (Function.name_of_named? found) none.1

theorem exhausts_evalAll (es : List Expr) (none : "IF" ∉ callsOfAll es) :
    Exhausts (fun value => evalAll value es) ((referencesOfAll es).map (·.address)) := by
  cases es with
  | nil => exact fun value y given => rfl
  | cons e es =>
    simp only [callsOfAll, List.mem_append, not_or] at none
    simp only [evalAll, referencesOfAll, List.map_append]
    apply (exhausts_eval e none.1).andThen
    intro x
    exact (exhausts_evalAll es none.2).check fun xs => .ok (x :: xs)

end

/-- An evaluation reads the references of an expression from left to right, each one at most once,
    and all of them if it gives a value and nothing is chosen. Its outcome and what it reads depend
    on no cell but those it reads. -/
theorem eval_reads (value : Address → Except Failure Number) (e : Expr) :
    (e.eval value).reads.Sublist (e.references.map (·.address)) ∧
      (∀ x, (e.eval value).outcome = .ok x → "IF" ∉ e.calls →
        (e.eval value).reads = e.references.map (·.address)) ∧
      ∀ other : Address → Except Failure Number,
        (∀ a ∈ (e.eval value).reads, other a = value a) → e.eval other = e.eval value := by
  refine ⟨(follows_eval e).inOrder value, ?_, (follows_eval e).determined value⟩
  intro x given none
  exact exhausts_eval e none value x given

/-- A sum in which the cell of the branch that is not taken fails, and one without a choice. -/
theorem eval_reads_of_choice :
    let a : Reference := ⟨⟨0, 0, true, true⟩, "$A$1"⟩
    let b : Reference := ⟨⟨1, 0, false, false⟩, "B1"⟩
    let c : Reference := ⟨⟨2, 0, false, false⟩, "c1"⟩
    let chosen := call "SUM" [ref a, call "IF" [percent (ref b), ref c, unary .minus (ref a)], ref b]
    let every := call "SUM" [ref a, binary .power (ref b) (ref a), ref b]
    let other : Address → Except Failure Number := fun address =>
      if address = a.address then .ok (.double 2.0) else .ok (.double 0.0)
    let value : Address → Except Failure Number := fun address =>
      if address = c.address then .error .divisionByZero else other address
    ((chosen.eval value).reads = [a.address, b.address, a.address, b.address] ∧
      (∀ address ∈ (chosen.eval value).reads, other address = value address) ∧
      chosen.eval other = chosen.eval value) ∧
    ((every.eval value).outcome = .ok (.double 2.0) ∧ "IF" ∉ every.calls ∧
      (every.eval value).reads = [a.address, b.address, a.address, b.address]) := by
  intro a b c chosen every other value
  have reads : (chosen.eval value).reads = [a.address, b.address, a.address, b.address] := by
    decide +kernel
  have agree : ∀ address ∈ (chosen.eval value).reads, other address = value address := by
    intro address member
    have unread : address ≠ c.address := by
      intro same
      rw [reads, same] at member
      revert member
      decide
    exact (if_neg unread).symm
  have given : (every.eval value).outcome = .ok (.double 2.0) := rfl
  have none : "IF" ∉ every.calls := by decide
  exact ⟨⟨reads, agree, (eval_reads value chosen).2.2 other agree⟩,
    given, none, (eval_reads value every).2.1 (.double 2.0) given none⟩

end Expr

end Spreadsheet
