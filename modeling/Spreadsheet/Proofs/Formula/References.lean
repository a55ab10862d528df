import Spreadsheet.Proofs.Address.Spelling
import Spreadsheet.Proofs.Formula.Adjacency

namespace Spreadsheet

theorem Function.all_isAlpha_name (f : Function) : f.name.toList.all Char.isAlpha = true := by
  cases f with
  | aggregate a => cases a <;> decide
  | conditional => decide

theorem Function.isAlpha_of_lookup? {name : String} {f : Function} {c : Char}
    (known : Function.lookup? name = some f) (member : c ∈ name.toList) (low : c.toNat < 97) :
    c.isAlpha = true := by
  have kept : c ∈ (Text.upper name).toList := by
    rw [Text.upper, String.toList_ofList]
    refine List.mem_flatMap.mpr ⟨c, member, ?_⟩
    rw [Text.upperChar_of_lt low]
    exact List.mem_singleton_self c
  rw [← Function.name_of_named? known] at kept
  exact List.all_eq_true.mp f.all_isAlpha_name c kept

theorem Function.parse_ne_ok {name : String} {f : Function} {a : Address}
    (known : Function.lookup? name = some f) : Address.parse name ≠ .ok a := by
  intro valid
  obtain ⟨s, parts, whole, -⟩ := Address.parse_eq_ok_iff.mp valid
  obtain ⟨c, head, digit⟩ := parts.head?_digits
  have member : c ∈ name.toList := by
    rw [whole]
    simp [Address.Spelling.chars, List.mem_of_head? head]
  have code := Text.isDigit_iff.mp digit
  have letter := Text.isAlpha_iff.mp (Function.isAlpha_of_lookup? known member (by omega))
  omega

namespace Token

/-- The reference that a word is, if it is an address. -/
def Kind.reference? : Kind → Option Reference
  | .identifier name =>
    match Address.parse name with
    | .ok a => some ⟨a, name⟩
    | .error _ => none
  | _ => none

theorem Kind.reference?_eq_some_iff {k : Kind} {r : Reference} :
    k.reference? = some r ↔ k = .identifier r.text ∧ Address.parse r.text = .ok r.address := by
  obtain ⟨a, text⟩ := r
  cases k with
  | identifier name =>
    cases valid : Address.parse name with
    | ok b =>
      simp only [reference?, valid, Option.some.injEq, Reference.mk.injEq, identifier.injEq]
      constructor
      · rintro ⟨rfl, rfl⟩
        exact ⟨rfl, valid⟩
      · rintro ⟨rfl, valid'⟩
        exact ⟨Except.ok.inj (valid.symm.trans valid'), rfl⟩
    | error f =>
      simp only [reference?, valid]
      refine ⟨nofun, ?_⟩
      rintro ⟨same, valid'⟩
      cases same
      cases valid.symm.trans valid'
  | _ => exact ⟨nofun, fun both => nomatch both.1⟩

theorem Kind.reference?_of_lookup? {name : String} {f : Function}
    (known : Function.lookup? name = some f) : (Kind.identifier name).reference? = none := by
  cases found : (Kind.identifier name).reference? with
  | none => rfl
  | some r =>
    obtain ⟨same, valid⟩ := Kind.reference?_eq_some_iff.mp found
    cases same
    exact absurd valid (Function.parse_ne_ok known)

def references (ts : List Token) : List Reference := ts.filterMap (·.kind.reference?)

variable {t : Token} {ts us : List Token}

@[simp] theorem references_append (ts us : List Token) :
    references (ts ++ us) = references ts ++ references us := List.filterMap_append

@[simp] theorem references_nil : references [] = [] := rfl

theorem references_cons_of_none (h : t.kind.reference? = none) (ts : List Token) :
    references (t :: ts) = references ts := List.filterMap_cons_none h

theorem references_cons_of_some {r : Reference} (h : t.kind.reference? = some r)
    (ts : List Token) : references (t :: ts) = r :: references ts := List.filterMap_cons_some h

/-- A way to collect something from tokens, left to right: what a reference gives is told by the
    reference, and neither the names of calls nor other tokens give anything. -/
structure Collects {β : Type} (pick : List Token → List β) (of : Reference → β) : Prop where
  nil : pick [] = []
  append : ∀ ts us, (∀ u ∈ us.head?, u.kind ≠ .leftParen) → pick (ts ++ us) = pick ts ++ pick us
  mark : ∀ t ts, t.category ≠ .identifier → pick (t :: ts) = pick ts
  callee : ∀ t left ts name f, t.kind = .identifier name → Function.lookup? name = some f →
    left.kind = .leftParen → pick (t :: left :: ts) = pick ts
  reference : ∀ t name a, t.kind = .identifier name → Address.parse name = .ok a →
    pick [t] = [of ⟨a, name⟩]

namespace Collects

variable {β : Type} {pick : List Token → List β} {of : Reference → β}

theorem mark_of_kind (c : Collects pick of) {k : Kind} (same : t.kind = k)
    (other : k.category ≠ .identifier) (ts : List Token) : pick (t :: ts) = pick ts := by
  apply c.mark
  rwa [category, same]

theorem concat (c : Collects pick of) {k : Kind} (same : t.kind = k)
    (other : k.category ≠ .identifier) (opens : k ≠ .leftParen) (ts : List Token) :
    pick (ts ++ [t]) = pick ts := by
  have apart : ∀ u ∈ [t].head?, u.kind ≠ .leftParen := by
    intro u head
    cases head
    rwa [same]
  rw [c.append ts [t] apart, c.mark_of_kind same other, c.nil, List.append_nil]

theorem around (c : Collects pick of) {k : Kind} (same : t.kind = k)
    (other : k.category ≠ .identifier) (opens : k ≠ .leftParen) (ts us : List Token) :
    pick (ts ++ t :: us) = pick ts ++ pick us := by
  have apart : ∀ u ∈ (t :: us).head?, u.kind ≠ .leftParen := by
    intro u head
    cases head
    rwa [same]
  rw [c.append ts (t :: us) apart, c.mark_of_kind same other]

theorem separated (c : Collects pick of) {parts : List (List Token)} (h : Separated parts ts) :
    pick ts = parts.flatMap pick := by
  induction h with
  | none => exact c.nil
  | one us => rw [List.flatMap_singleton]
  | more mark _ ih =>
    rw [c.around mark nofun nofun, ih]
    rfl

end Collects

theorem collects_references : Collects references id where
  nil := references_nil
  append ts us _ := references_append ts us
  mark t ts other := by
    apply references_cons_of_none
    unfold category at other
    unfold Kind.reference?
    split
    · rename_i same
      rw [same] at other
      exact absurd rfl other
    · rfl
  callee t left ts name f mark known opening := by
    have word : t.kind.reference? = none := mark ▸ Kind.reference?_of_lookup? known
    rw [references_cons_of_none word, references_cons_of_none (by rw [opening]; rfl)]
  reference t name a mark valid := by
    have found : t.kind.reference? = some ⟨a, name⟩ :=
      Kind.reference?_eq_some_iff.mpr ⟨mark, valid⟩
    exact references_cons_of_some found []

theorem Separated.mem {parts : List (List Token)} (h : Separated parts ts) (member : t ∈ ts) :
    t.kind = .comma ∨ ∃ us ∈ parts, t ∈ us := by
  induction h with
  | none => cases member
  | one us => exact .inr ⟨us, List.mem_singleton_self us, member⟩
  | more mark others ih =>
    rcases List.mem_append.mp member with first | member
    · exact .inr ⟨_, List.mem_cons_self, first⟩
    · rcases List.mem_cons.mp member with rfl | member
      · exact .inl mark
      · exact (ih member).imp id fun ⟨us, part, inside⟩ => ⟨us, List.mem_cons_of_mem _ part, inside⟩

def Kind.IsKnown : Kind → Prop
  | .identifier name =>
    (∃ a, Address.parse name = .ok a) ∨ ∃ f, Function.lookup? name = some f
  | _ => True

end Token

theorem Expr.referencesOfAll_eq (es : List Expr) :
    referencesOfAll es = es.flatMap references := by
  induction es with
  | nil => rfl
  | cons e es ih => rw [referencesOfAll, ih, List.flatMap_cons]

namespace Derives

open Token

variable {p : Phrase} {ts : List Token} {e : Expr}

/-- What is collected from the tokens of a phrase is what its references give. -/
theorem collects {β : Type} {pick : List Token → List β} {of : Reference → β}
    (c : Collects pick of) (h : Derives p ts e) : pick ts = e.references.map of := by
  induction h with
  | formula _ ih | operand _ ih | unsigned _ ih | whole _ ih | word _ ih => exact ih
  | equalSign mark _ ih => rw [c.mark_of_kind mark nofun, ih]
  | operation _ mark _ ih ih' =>
    obtain ⟨o, kind, -⟩ := Level.opOfToken?_eq_some_iff.mp mark
    rw [c.around kind nofun nofun, ih, ih', Expr.references, List.map_append]
  | signed mark _ ih =>
    rw [Expr.references, ← ih]
    rcases Sign.kind_of_ofToken? mark with kind | kind
    · exact c.mark_of_kind kind nofun _
    · exact c.mark_of_kind kind nofun _
  | percent _ mark ih => rw [c.concat mark nofun nofun, ih, Expr.references]
  | number mark | truth mark => rw [c.mark_of_kind mark nofun, c.nil]; rfl
  | group opening _ closing ih =>
    rw [c.concat closing nofun nofun, c.mark_of_kind opening nofun, ih]
  | reference mark valid => exact c.reference _ _ _ mark valid
  | @call t left right name f arguments ts mark known opening inner separated closing _ ih =>
    rw [c.concat closing nofun nofun, c.callee t left ts name f mark known opening,
      c.separated separated, Expr.references, Expr.referencesOfAll_eq, List.map_flatMap,
      List.flatMap_map, List.flatMap_map]
    exact List.flatMap_congr ih

theorem references_eq (h : Derives p ts e) : e.references = Token.references ts := by
  rw [h.collects collects_references, List.map_id]

theorem isKnown (h : Derives p ts e) : ∀ t ∈ ts, t.kind.IsKnown := by
  induction h with
  | formula _ ih | operand _ ih | unsigned _ ih | whole _ ih | word _ ih => exact ih
  | equalSign mark body ih => exact List.forall_mem_cons.mpr ⟨by simp [Kind.IsKnown, mark], ih⟩
  | operation left mark right ih ih' =>
    obtain ⟨o, kind, -⟩ := Level.opOfToken?_eq_some_iff.mp mark
    refine List.forall_mem_append.mpr ⟨ih, List.forall_mem_cons.mpr ⟨?_, ih'⟩⟩
    simp [Kind.IsKnown, kind]
  | signed mark operand ih =>
    refine List.forall_mem_cons.mpr ⟨?_, ih⟩
    rcases Sign.kind_of_ofToken? mark with kind | kind <;> simp [Kind.IsKnown, kind]
  | percent operand mark ih =>
    exact List.forall_mem_append.mpr ⟨ih, by simp [Kind.IsKnown, mark]⟩
  | number mark | truth mark => simp [Kind.IsKnown, mark]
  | group opening inner closing ih =>
    refine List.forall_mem_append.mpr ⟨List.forall_mem_cons.mpr ⟨?_, ih⟩, ?_⟩
    · simp [Kind.IsKnown, opening]
    · simp [Kind.IsKnown, closing]
  | reference mark valid => simp [Kind.IsKnown, mark, valid]
  | call mark known opening inner separated closing admitted ih =>
    refine List.forall_mem_append.mpr ⟨List.forall_mem_cons.mpr ⟨?_,
      List.forall_mem_cons.mpr ⟨?_, fun t member => ?_⟩⟩, ?_⟩
    · simp [Kind.IsKnown, mark, known]
    · simp [Kind.IsKnown, opening]
    · rcases separated.mem member with kind | ⟨us, part, member⟩
      · simp [Kind.IsKnown, kind]
      · obtain ⟨p, argument, rfl⟩ := List.mem_map.mp part
        exact ih p argument t member
    · simp [Kind.IsKnown, closing]

end Derives

end Spreadsheet
