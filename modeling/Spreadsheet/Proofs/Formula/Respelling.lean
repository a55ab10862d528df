import Spreadsheet.Proofs.Formula.Evaluation
import Spreadsheet.Proofs.Formula.References

namespace Spreadsheet

variable {f : Reference → Reference}

namespace Token

/-- A token may be written as another one that stands for the same, up to references, which a
    function changes. -/
inductive Kind.Respells (f : Reference → Reference) : Kind → Kind → Prop where
  | refl {k : Kind} (fixed : k.category ≠ .identifier) : Respells f k k
  | number {s t : String} (value : Numeral.floatOfText t = Numeral.floatOfText s) :
      Respells f (.number s) (.number t)
  | reference {r : Reference} (valid : Address.parse r.text = .ok r.address)
      (valid' : Address.parse (f r).text = .ok (f r).address) :
      Respells f (.identifier r.text) (.identifier (f r).text)
  | function {s t : String} {g : Function} (known : Function.lookup? s = some g)
      (known' : Function.lookup? t = some g) : Respells f (.identifier s) (.identifier t)

theorem Kind.respells_id {k : Kind} (known : k.IsKnown) : k.Respells id k := by
  cases k with
  | identifier name =>
    rcases known with ⟨a, address⟩ | ⟨g, function⟩
    · exact @Kind.Respells.reference id ⟨a, name⟩ address address
    · exact .function function function
  | _ => exact .refl nofun

def Respells (f : Reference → Reference) (t u : Token) : Prop := t.kind.Respells f u.kind

variable {t u : Token} {ts us ws : List Token}

theorem Respells.kind_eq (h : t.Respells f u) (word : t.category ≠ .identifier)
    (number : t.category ≠ .number) : u.kind = t.kind := by
  unfold Respells at h
  unfold Token.category at word number
  revert h word number
  generalize t.kind = k
  generalize u.kind = k'
  rintro (_ | _ | _ | _) word number
  · rfl
  · exact absurd rfl number
  · exact absurd rfl word
  · exact absurd rfl word

theorem Respells.kind_eq_of {k : Kind} (h : t.Respells f u) (mark : t.kind = k)
    (word : k.category ≠ .identifier) (number : k.category ≠ .number) : u.kind = k := by
  subst mark
  exact h.kind_eq word number

theorem Respells.number {s : String} (h : t.Respells f u) (mark : t.kind = .number s) :
    ∃ s', u.kind = .number s' ∧ Numeral.floatOfText s' = Numeral.floatOfText s := by
  unfold Respells at h
  rw [mark] at h
  generalize u.kind = k at h
  cases h with
  | refl => exact ⟨s, rfl, rfl⟩
  | number value => exact ⟨_, rfl, value⟩

theorem Respells.reference {name : String} {a : Address} (h : t.Respells f u)
    (mark : t.kind = .identifier name) (valid : Address.parse name = .ok a) :
    u.kind = .identifier (f ⟨a, name⟩).text ∧
      Address.parse (f ⟨a, name⟩).text = .ok (f ⟨a, name⟩).address := by
  unfold Respells at h
  rw [mark] at h
  generalize u.kind = k at h
  cases h with
  | refl fixed => exact absurd rfl fixed
  | @reference r valid' still =>
    obtain ⟨b, name⟩ := r
    cases valid.symm.trans valid'
    exact ⟨rfl, still⟩
  | function known => exact absurd valid (Function.parse_ne_ok known)

theorem Respells.function {name : String} {g : Function} (h : t.Respells f u)
    (mark : t.kind = .identifier name) (known : Function.lookup? name = some g) :
    ∃ name', u.kind = .identifier name' ∧ Function.lookup? name' = some g := by
  unfold Respells at h
  rw [mark] at h
  generalize u.kind = k at h
  cases h with
  | refl fixed => exact absurd rfl fixed
  | reference valid => exact absurd valid (Function.parse_ne_ok known)
  | function known' still =>
    cases known.symm.trans known'
    exact ⟨_, rfl, still⟩

theorem forall₂_append_left (h : (ts ++ us).Forall₂ (Respells f) ws) :
    ∃ vs vs', ws = vs ++ vs' ∧ ts.Forall₂ (Respells f) vs ∧ us.Forall₂ (Respells f) vs' := by
  induction ts generalizing ws with
  | nil => exact ⟨[], ws, rfl, .nil, h⟩
  | cons t ts ih =>
    obtain ⟨u, ws, first, rest, rfl⟩ := List.forall₂_cons_left_iff.mp h
    obtain ⟨vs, vs', rfl, before, after⟩ := ih rest
    exact ⟨u :: vs, vs', rfl, .cons first before, after⟩

theorem forall₂_singleton_left (h : [t].Forall₂ (Respells f) ws) :
    ∃ u, ws = [u] ∧ t.Respells f u := by
  obtain ⟨u, us, first, rest, rfl⟩ := List.forall₂_cons_left_iff.mp h
  rw [List.forall₂_nil_left_iff.mp rest]
  exact ⟨u, rfl, first⟩

theorem Separated.respells {parts : List (List Token)} (h : Separated parts ts)
    (same : ts.Forall₂ (Respells f) us) :
    ∃ parts', Separated parts' us ∧ parts.Forall₂ (List.Forall₂ (Respells f)) parts' := by
  induction h generalizing us with
  | none =>
    rw [List.forall₂_nil_left_iff.mp same]
    exact ⟨[], .none, .nil⟩
  | one ts => exact ⟨[us], .one us, .cons same .nil⟩
  | more mark others ih =>
    obtain ⟨vs, vs', rfl, first, later⟩ := forall₂_append_left same
    obtain ⟨comma', vs', kind, rest, rfl⟩ := List.forall₂_cons_left_iff.mp later
    obtain ⟨parts', separated, parts⟩ := ih rest
    obtain ⟨ws, parts', second, remaining, rfl⟩ := List.forall₂_cons_left_iff.mp parts
    exact ⟨vs :: ws :: parts', .more (kind.kind_eq_of mark nofun nofun) separated,
      .cons first parts⟩

end Token

theorem Level.opOfToken?_congr {level : Level} {t u : Token} (same : u.kind = t.kind) :
    level.opOfToken? u = level.opOfToken? t := by
  unfold opOfToken?
  rw [same]

theorem Sign.ofToken?_congr {t u : Token} (same : u.kind = t.kind) :
    Sign.ofToken? u = Sign.ofToken? t := by
  unfold ofToken?
  rw [same]

namespace Derives

open Token

theorem exists_arguments {arguments : List (List Token × Expr)} {parts : List (List Token)}
    (inner : ∀ p ∈ arguments, ∀ us, p.1.Forall₂ (Respells f) us →
      Derives (.operation .comparison) us (p.2.mapReferences f))
    (same : (arguments.map Prod.fst).Forall₂ (List.Forall₂ (Respells f)) parts) :
    ∃ arguments' : List (List Token × Expr), arguments'.map Prod.fst = parts ∧
      arguments'.map Prod.snd = (arguments.map Prod.snd).map (Expr.mapReferences f) ∧
      ∀ p ∈ arguments', Derives (.operation .comparison) p.1 p.2 := by
  induction arguments generalizing parts with
  | nil =>
    rw [List.forall₂_nil_left_iff.mp same]
    exact ⟨[], rfl, rfl, nofun⟩
  | cons p arguments ih =>
    obtain ⟨us, parts, first, rest, rfl⟩ := List.forall₂_cons_left_iff.mp same
    obtain ⟨arguments', fst, snd, derived⟩ :=
      ih (fun q member => inner q (List.mem_cons_of_mem _ member)) rest
    refine ⟨(us, p.2.mapReferences f) :: arguments', ?_, ?_, ?_⟩
    · rw [List.map_cons, fst]
    · rw [List.map_cons, snd]
      rfl
    · exact List.forall_mem_cons.mpr ⟨inner p List.mem_cons_self us first, derived⟩

/-- Tokens that are written otherwise make the same expression, up to references. -/
theorem respells {p : Phrase} {ts us : List Token} {e : Expr} (h : Derives p ts e)
    (same : ts.Forall₂ (Respells f) us) : Derives p us (e.mapReferences f) := by
  induction h generalizing us with
  | formula _ ih => exact .formula (ih same)
  | operand _ ih => exact .operand (ih same)
  | unsigned _ ih => exact .unsigned (ih same)
  | whole _ ih => exact .whole (ih same)
  | word _ ih => exact .word (ih same)
  | equalSign mark body ih =>
    obtain ⟨u, us, first, rest, rfl⟩ := List.forall₂_cons_left_iff.mp same
    exact .equalSign (first.kind_eq_of mark nofun nofun) (ih rest)
  | operation left mark right ih ih' =>
    obtain ⟨vs, vs', rfl, before, after⟩ := forall₂_append_left same
    obtain ⟨u, us, first, rest, rfl⟩ := List.forall₂_cons_left_iff.mp after
    obtain ⟨o, kind, -⟩ := Level.opOfToken?_eq_some_iff.mp mark
    have kind' := first.kind_eq_of kind nofun nofun
    refine .operation (ih before) ?_ (ih' rest)
    rw [Level.opOfToken?_congr (kind'.trans kind.symm), mark]
  | signed mark operand ih =>
    obtain ⟨u, us, first, rest, rfl⟩ := List.forall₂_cons_left_iff.mp same
    refine .signed ?_ (ih rest)
    rcases Sign.kind_of_ofToken? mark with kind | kind
    all_goals
      have kind' := first.kind_eq_of kind nofun nofun
      rw [Sign.ofToken?_congr (kind'.trans kind.symm), mark]
  | percent operand mark ih =>
    obtain ⟨vs, vs', rfl, before, after⟩ := forall₂_append_left same
    obtain ⟨u, rfl, first⟩ := forall₂_singleton_left after
    exact .percent (ih before) (first.kind_eq_of mark nofun nofun)
  | number mark finite =>
    obtain ⟨u, rfl, first⟩ := forall₂_singleton_left same
    obtain ⟨text, kind, value⟩ := first.number mark
    rw [Expr.mapReferences, ← value]
    exact .number kind (by rwa [value])
  | truth mark =>
    obtain ⟨u, rfl, first⟩ := forall₂_singleton_left same
    exact .truth (first.kind_eq_of mark nofun nofun)
  | group opening inner closing ih =>
    obtain ⟨vs, vs', rfl, before, after⟩ := forall₂_append_left same
    obtain ⟨left, vs, first, rest, rfl⟩ := List.forall₂_cons_left_iff.mp before
    obtain ⟨right, rfl, last⟩ := forall₂_singleton_left after
    exact .group (first.kind_eq_of opening nofun nofun) (ih rest)
      (last.kind_eq_of closing nofun nofun)
  | reference mark valid =>
    obtain ⟨u, rfl, first⟩ := forall₂_singleton_left same
    obtain ⟨kind, still⟩ := first.reference mark valid
    exact .reference kind still
  | @call _ _ _ _ _ arguments _ mark known opening inner separated closing admitted ih =>
    obtain ⟨vs, vs', rfl, before, after⟩ := forall₂_append_left same
    obtain ⟨u, vs, word, rest, rfl⟩ := List.forall₂_cons_left_iff.mp before
    obtain ⟨left, vs, first, inside, rfl⟩ := List.forall₂_cons_left_iff.mp rest
    obtain ⟨right, rfl, last⟩ := forall₂_singleton_left after
    obtain ⟨name', kind, known'⟩ := word.function mark known
    obtain ⟨parts, separated', parted⟩ := separated.respells inside
    obtain ⟨arguments', rfl, snd, derived⟩ :=
      exists_arguments (fun p member us => ih p member) parted
    have count : arguments'.length = arguments.length := by
      have size := congrArg List.length snd
      simpa only [List.length_map] using size
    rw [Expr.mapReferences, Expr.mapReferencesOfAll_eq, ← snd]
    exact .call kind known' (first.kind_eq_of opening nofun nofun) derived separated'
      (last.kind_eq_of closing nofun nofun) (count ▸ admitted)

theorem of_kinds {p : Phrase} {ts us : List Token} {e : Expr} (h : Derives p ts e)
    (same : us.map (·.kind) = ts.map (·.kind)) : Derives p us e := by
  have kindwise : (ts.map (·.kind)).Forall₂ (Kind.Respells id) (us.map (·.kind)) := by
    rw [same, List.forall₂_same]
    intro k member
    obtain ⟨t, inside, rfl⟩ := List.mem_map.mp member
    exact Kind.respells_id (h.isKnown t inside)
  rw [List.forall₂_map_left_iff, List.forall₂_map_right_iff] at kindwise
  have respelled := h.respells kindwise
  rwa [e.mapReferences_id] at respelled

end Derives

end Spreadsheet
