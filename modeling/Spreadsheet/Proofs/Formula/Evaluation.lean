import Spreadsheet.Proofs.Formula.Reading

namespace Spreadsheet

theorem Except.bind_eq_ok {ε α β : Type} {x : Except ε α} {f : α → Except ε β} {b : β}
    (h : x.bind f = .ok b) : ∃ a, x = .ok a ∧ f a = .ok b := by
  cases x with
  | error e => cases h
  | ok a => exact ⟨a, rfl, h⟩

theorem Except.map_eq_ok {ε α β : Type} {x : Except ε α} {f : α → β} {b : β}
    (h : x.map f = .ok b) : ∃ a, x = .ok a ∧ f a = b := by
  cases x with
  | error e => cases h
  | ok a =>
    cases h
    exact ⟨a, rfl, rfl⟩

theorem Reading.outcome_andThen {α β : Type} (r : Reading α) (f : α → Reading β) :
    (r.andThen f).outcome = r.outcome.bind fun x => (f x).outcome := by
  unfold andThen
  cases r.outcome with
  | error e => rfl
  | ok x => rfl

theorem Reading.andThen_eq_ok {α β : Type} {r : Reading α} {f : α → Reading β} {y : β}
    (h : (r.andThen f).outcome = .ok y) : ∃ x, r.outcome = .ok x ∧ (f x).outcome = .ok y := by
  rw [outcome_andThen] at h
  exact Except.bind_eq_ok h

namespace Expr

theorem mapReferencesOfAll_eq (f : Reference → Reference) (es : List Expr) :
    mapReferencesOfAll f es = es.map (mapReferences f) := by
  induction es with
  | nil => rfl
  | cons e es ih => rw [mapReferencesOfAll, ih, List.map_cons]

mutual

theorem mapReferences_id (e : Expr) : e.mapReferences id = e := by
  cases e with
  | const x => rfl
  | ref r => rfl
  | percent e => rw [mapReferences, mapReferences_id e]
  | unary s e => rw [mapReferences, mapReferences_id e]
  | binary op l r => rw [mapReferences, mapReferences_id l, mapReferences_id r]
  | call name es => rw [mapReferences, mapReferencesOfAll_id es]

theorem mapReferencesOfAll_id (es : List Expr) : mapReferencesOfAll id es = es := by
  cases es with
  | nil => rfl
  | cons e es => rw [mapReferencesOfAll, mapReferences_id e, mapReferencesOfAll_id es]

end

mutual

theorem mapReferences_mapReferences (f g : Reference → Reference) (e : Expr) :
    (e.mapReferences f).mapReferences g = e.mapReferences (g ∘ f) := by
  cases e with
  | const _ => rfl
  | ref _ => rfl
  | percent e => simp only [mapReferences, mapReferences_mapReferences f g e]
  | unary _ e => simp only [mapReferences, mapReferences_mapReferences f g e]
  | binary _ l r =>
    simp only [mapReferences, mapReferences_mapReferences f g l, mapReferences_mapReferences f g r]
  | call _ es => simp only [mapReferences, mapReferencesOfAll_mapReferencesOfAll f g es]

theorem mapReferencesOfAll_mapReferencesOfAll (f g : Reference → Reference) (es : List Expr) :
    mapReferencesOfAll g (mapReferencesOfAll f es) = mapReferencesOfAll (g ∘ f) es := by
  cases es with
  | nil => rfl
  | cons e es =>
    simp only [mapReferencesOfAll, mapReferences_mapReferences f g e,
      mapReferencesOfAll_mapReferencesOfAll f g es]

end

mutual

theorem mapReferences_congr {f g : Reference → Reference} (e : Expr)
    (same : ∀ r ∈ e.references, f r = g r) : e.mapReferences f = e.mapReferences g := by
  cases e with
  | const x => rfl
  | ref r => rw [mapReferences, mapReferences, same r (List.mem_singleton_self r)]
  | percent e => rw [mapReferences, mapReferences, mapReferences_congr e same]
  | unary s e => rw [mapReferences, mapReferences, mapReferences_congr e same]
  | binary op l r =>
    rw [mapReferences, mapReferences,
      mapReferences_congr l fun x member => same x (List.mem_append_left _ member),
      mapReferences_congr r fun x member => same x (List.mem_append_right _ member)]
  | call name es => rw [mapReferences, mapReferences, mapReferencesOfAll_congr es same]

theorem mapReferencesOfAll_congr {f g : Reference → Reference} (es : List Expr)
    (same : ∀ r ∈ referencesOfAll es, f r = g r) :
    mapReferencesOfAll f es = mapReferencesOfAll g es := by
  cases es with
  | nil => rfl
  | cons e es =>
    rw [mapReferencesOfAll, mapReferencesOfAll,
      mapReferences_congr e fun x member => same x (List.mem_append_left _ member),
      mapReferencesOfAll_congr es fun x member => same x (List.mem_append_right _ member)]

end

theorem eval_congr {v w : Address → Except Failure Number} {e : Expr}
    (same : ∀ r ∈ e.references, v r.address = w r.address) : e.eval v = e.eval w := by
  have reading := follows_eval e
  apply Eq.symm
  apply reading.determined
  intro a member
  obtain ⟨r, inside, rfl⟩ := List.mem_map.mp ((reading.inOrder v).subset member)
  exact (same r inside).symm

mutual

/-- An expression whose references are changed has the outcome of the expression before, if the
    references have the values of the ones that they replace. -/
theorem outcome_eval_mapReferences {v w : Address → Except Failure Number}
    {f : Reference → Reference} (e : Expr)
    (same : ∀ r ∈ e.references, w (f r).address = v r.address) :
    ((e.mapReferences f).eval w).outcome = (e.eval v).outcome := by
  cases e with
  | const x => rfl
  | ref r =>
    have here := same r (List.mem_singleton_self r)
    simp only [mapReferences, eval, here]
  | percent e =>
    simp only [mapReferences, eval, Reading.outcome_andThen,
      outcome_eval_mapReferences e same]
  | unary s e =>
    simp only [mapReferences, eval, Reading.outcome_andThen,
      outcome_eval_mapReferences e same]
  | binary op l r =>
    have left := outcome_eval_mapReferences l fun x member =>
      same x (List.mem_append_left _ member)
    have right := outcome_eval_mapReferences r fun x member =>
      same x (List.mem_append_right _ member)
    simp only [mapReferences, eval, Reading.outcome_andThen, left, right]
  | call name es =>
    have all := outcome_evalAll_mapReferences es same
    have chosen := outcome_evalChosen_mapReferences es same
    simp only [mapReferences, eval]
    split
    · rfl
    · simp only [Reading.outcome_andThen, all]
    · simp only [Reading.outcome_andThen, chosen]

theorem outcome_evalAll_mapReferences {v w : Address → Except Failure Number}
    {f : Reference → Reference} (es : List Expr)
    (same : ∀ r ∈ referencesOfAll es, w (f r).address = v r.address) :
    (evalAll w (mapReferencesOfAll f es)).outcome = (evalAll v es).outcome := by
  cases es with
  | nil => rfl
  | cons e es =>
    have head := outcome_eval_mapReferences e fun x member =>
      same x (List.mem_append_left _ member)
    have tail := outcome_evalAll_mapReferences es fun x member =>
      same x (List.mem_append_right _ member)
    simp only [mapReferencesOfAll, evalAll, Reading.outcome_andThen, head, tail]

theorem outcome_evalChosen_mapReferences {v w : Address → Except Failure Number}
    {f : Reference → Reference} (es : List Expr)
    (same : ∀ r ∈ referencesOfAll es, w (f r).address = v r.address) :
    (evalChosen w (mapReferencesOfAll f es)).outcome = (evalChosen v es).outcome := by
  match es with
  | [] => rfl
  | [_] => rfl
  | [c, yes] =>
    simp only [referencesOfAll, List.mem_append] at same
    have condition := outcome_eval_mapReferences c fun x member => same x (by simp [member])
    have chosen := outcome_eval_mapReferences yes fun x member => same x (by simp [member])
    simp only [mapReferencesOfAll, evalChosen, Reading.outcome_andThen, condition,
      apply_ite Reading.outcome, chosen]
  | [c, yes, no] =>
    simp only [referencesOfAll, List.mem_append] at same
    have condition := outcome_eval_mapReferences c fun x member => same x (by simp [member])
    have chosen := outcome_eval_mapReferences yes fun x member => same x (by simp [member])
    have other := outcome_eval_mapReferences no fun x member => same x (by simp [member])
    simp only [mapReferencesOfAll, evalChosen, Reading.outcome_andThen, condition,
      apply_ite Reading.outcome, chosen, other]
  | _ :: _ :: _ :: _ :: es =>
    have count : (mapReferencesOfAll f es).length = es.length := by
      rw [mapReferencesOfAll_eq, List.length_map]
    simp only [mapReferencesOfAll, evalChosen, List.length_cons, count]

end

end Expr

end Spreadsheet
