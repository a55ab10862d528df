import Mathlib.Order.Basic
import Spreadsheet.Formula.Grammar
import Spreadsheet.Proofs.Formula.Completeness

namespace Spreadsheet

def BinaryOp.IsKnown : BinaryOp → Prop
  | .other _ => False
  | _ => True

def Sign.IsKnown : Sign → Prop
  | .other _ => False
  | _ => True

namespace Expr

mutual

/-- What formulas write: finite constants, references that are addresses, known signs and operators,
    and calls of functions with a number of arguments that they take, which is no more than
    `size`. -/
def WellFormed (size : Nat) : Expr → Prop
  | const x => x.isFinite = true
  | ref r => Address.parse r.text = .ok r.address
  | percent e => e.WellFormed size
  | unary s e => s.IsKnown ∧ e.WellFormed size
  | binary op l r => op.IsKnown ∧ l.WellFormed size ∧ r.WellFormed size
  | call name es =>
    (∃ f : Function, f.name = name ∧ f.arity.Admits es.length) ∧ es.length ≤ size ∧
      AllWellFormed size es

def AllWellFormed (size : Nat) : List Expr → Prop
  | [] => True
  | e :: es => e.WellFormed size ∧ AllWellFormed size es

end

variable {size larger : Nat} {e : Expr} {es : List Expr}

theorem allWellFormed_iff : AllWellFormed size es ↔ ∀ e ∈ es, e.WellFormed size := by
  induction es with
  | nil => simp [AllWellFormed]
  | cons e es ih => simp [AllWellFormed, ih]

mutual

theorem WellFormed.mono (le : size ≤ larger) (e : Expr) (h : e.WellFormed size) :
    e.WellFormed larger := by
  cases e with
  | const | ref => exact h
  | percent e => exact WellFormed.mono le e h
  | unary s e => exact ⟨h.1, WellFormed.mono le e h.2⟩
  | binary op l r => exact ⟨h.1, WellFormed.mono le l h.2.1, WellFormed.mono le r h.2.2⟩
  | call name es => exact ⟨h.1, h.2.1.trans le, AllWellFormed.mono le es h.2.2⟩

theorem AllWellFormed.mono (le : size ≤ larger) (es : List Expr) (h : AllWellFormed size es) :
    AllWellFormed larger es := by
  cases es with
  | nil => trivial
  | cons e es => exact ⟨WellFormed.mono le e h.1, AllWellFormed.mono le es h.2⟩

end

mutual

theorem WellFormed.parse_reference (e : Expr) (h : e.WellFormed size) :
    ∀ r ∈ e.references, Address.parse r.text = .ok r.address := by
  cases e with
  | const => exact nofun
  | ref r => exact List.forall_mem_singleton.mpr h
  | percent e => exact WellFormed.parse_reference e h
  | unary _ e => exact WellFormed.parse_reference e h.2
  | binary op l r =>
    exact List.forall_mem_append.mpr
      ⟨WellFormed.parse_reference l h.2.1, WellFormed.parse_reference r h.2.2⟩
  | call name es => exact AllWellFormed.parse_reference es h.2.2

theorem AllWellFormed.parse_reference (es : List Expr) (h : AllWellFormed size es) :
    ∀ r ∈ referencesOfAll es, Address.parse r.text = .ok r.address := by
  cases es with
  | nil => exact nofun
  | cons e es =>
    exact List.forall_mem_append.mpr
      ⟨WellFormed.parse_reference e h.1, AllWellFormed.parse_reference es h.2⟩

end

end Expr

theorem Level.isKnown_of_opOfToken? {level : Level} {t : Token} {op : BinaryOp}
    (mark : level.opOfToken? t = some op) : op.IsKnown := by
  obtain ⟨o, -, found⟩ := opOfToken?_eq_some_iff.mp mark
  cases level <;> cases o <;> cases found <;> trivial

theorem Sign.isKnown_of_ofToken? {t : Token} {s : Sign} (mark : ofToken? t = some s) :
    s.IsKnown := by
  unfold ofToken? at mark
  split at mark <;> cases mark <;> trivial

theorem Token.Separated.length_le {parts : List (List Token)} {ts : List Token}
    (h : Separated parts ts) :
    parts.length ≤ ts.length + 1 ∧ ∀ us ∈ parts, us.length ≤ ts.length := by
  induction h with
  | none => exact ⟨Nat.zero_le _, nofun⟩
  | one ts => exact ⟨by simp, by simp⟩
  | more _ _ ih =>
    obtain ⟨count, sizes⟩ := ih
    refine ⟨?_, List.forall_mem_cons.mpr ⟨?_, fun us member => ?_⟩⟩
    · simp only [List.length_cons, List.length_append] at count ⊢
      omega
    · simp
    · have size := sizes us member
      simp only [List.length_cons, List.length_append]
      omega

/-- What the tokens of a phrase write is well-formed, with no more arguments in a call than there
    are tokens. -/
theorem Derives.wellFormed {p : Phrase} {ts : List Token} {e : Expr} (h : Derives p ts e) :
    e.WellFormed ts.length := by
  induction h with
  | formula _ ih | operand _ ih | unsigned _ ih | whole _ ih | word _ ih => exact ih
  | equalSign _ _ ih => exact ih.mono (Nat.le_succ _)
  | operation _ mark _ ih ih' =>
    refine ⟨Level.isKnown_of_opOfToken? mark, ih.mono ?_, ih'.mono ?_⟩
    all_goals
      simp only [List.length_append, List.length_cons]
      omega
  | signed mark _ ih => exact ⟨Sign.isKnown_of_ofToken? mark, ih.mono (Nat.le_succ _)⟩
  | percent _ _ ih => exact ih.mono (by simp)
  | number _ finite => exact finite
  | @truth _ b =>
    cases b with
    | true => exact (by decide : (1.0 : Float).isFinite = true)
    | false => exact (by decide : (0.0 : Float).isFinite = true)
  | group _ _ _ ih =>
    refine ih.mono ?_
    simp only [List.length_append, List.length_cons]
    omega
  | reference _ valid => exact valid
  | @call _ _ _ _ f arguments ts _ _ _ _ separated _ admitted ih =>
    obtain ⟨count, sizes⟩ := separated.length_le
    rw [List.length_map] at count
    refine ⟨⟨f, rfl, by rwa [List.length_map]⟩, ?_, Expr.allWellFormed_iff.mpr ?_⟩
    · simp only [List.length_map, List.length_append, List.length_cons]
      omega
    · intro e member
      obtain ⟨p, argument, rfl⟩ := List.mem_map.mp member
      refine (ih p argument).mono ?_
      have size := sizes p.1 (List.mem_map_of_mem argument)
      simp only [List.length_append, List.length_cons]
      omega

end Spreadsheet
