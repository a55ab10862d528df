import Spreadsheet.Proofs.Grading.Normal
import Spreadsheet.Proofs.Resolution.Spelling

namespace Spreadsheet.Grading

variable {text text' body body' : String} {e e' : Expr}

theorem normalize_of_formula (formula : formulaBody? text = some body) :
    normalize text = String.ofList ('=' :: (normalize body).toList) := by
  rw [formulaBody?_eq_some_iff.mp formula]
  have sign : Text.removeBlanks ('=' :: body.toList) = '=' :: Text.removeBlanks body.toList := rfl
  have capital : Text.upperChars ['='] = ['='] := by decide
  rw [normalize, normalize, String.toList_ofList, String.toList_ofList, sign,
    ← List.singleton_append, Text.upperChars_append, capital]
  rfl

theorem isAccepted_singleton {cell : String} :
    (isAccepted cell text [text']).1 = true ↔ normalize text' = normalize text := by
  simp [isAccepted, matchesAny]

theorem unspelled_eq_of_normalize (formula : formulaBody? text = some body)
    (formula' : formulaBody? text' = some body') (parsed : Expr.parse body = .ok e)
    (parsed' : Expr.parse body' = .ok e') (same : normalize text' = normalize text) :
    e.unspelled = e'.unspelled := by
  rw [normalize_of_formula formula, normalize_of_formula formula', String.ofList_inj,
    List.cons.injEq, String.toList_inj] at same
  have read := parse_normalize parsed
  rw [← same.2, parse_normalize parsed'] at read
  rw [← e.unspelled_capital, ← e'.unspelled_capital, Except.ok.inj read]

/-- The normal form of a text that is read as an expression is read as the same expression, but for
    the spelling of its references. Hence formulas that are accepted for each other are resolved
    alike over every table. -/
theorem isAccepted_faithful :
    (∀ text e, Expr.parse text = .ok e →
      ∃ e', Expr.parse (normalize text) = .ok e' ∧ e'.unspelled = e.unspelled) ∧
    ∀ cell text text' body body' e e', formulaBody? text = some body →
      formulaBody? text' = some body' → Expr.parse body = .ok e → Expr.parse body' = .ok e' →
      (isAccepted cell text [text']).1 = true →
      ∀ table current depth,
        resolveText text table current depth = resolveText text' table current depth := by
  refine ⟨fun text e parsed => ⟨_, parse_normalize parsed, e.unspelled_capital⟩, ?_⟩
  intro cell text text' body body' e e' formula formula' parsed parsed' accepted table current depth
  have same := unspelled_eq_of_normalize formula formula' parsed parsed'
    (isAccepted_singleton.mp accepted)
  unfold resolveText
  cases Resolver.ofTable table current depth with
  | error f => rfl
  | ok r => simp only [r.resolve_congr formula formula' parsed parsed' same]

theorem isAccepted_faithful_of_spelling :
    let e := fun a b => Expr.call "SUM" [.ref ⟨⟨0, 0, false, false⟩, a⟩,
      .binary .lessEqual (.ref ⟨⟨1, 1, true, false⟩, b⟩) (.ref ⟨⟨0, 0, false, false⟩, a⟩)]
    Expr.parse "sum( a1 ,\n$b2<=a1)" = .ok (e "a1" "$b2") ∧
      Expr.parse "SUM(A1,$b2 <= A1)" = .ok (e "A1" "$b2") ∧
      (isAccepted "C1" "=sum( a1 ,\n$b2<=a1)" ["=SUM(A1,$b2 <= A1)"]).1 = true ∧
      (∃ e', Expr.parse (normalize "sum( a1 ,\n$b2<=a1)") = .ok e' ∧
        e'.unspelled = (e "a1" "$b2").unspelled) ∧
      ∀ table current depth,
        resolveText "=sum( a1 ,\n$b2<=a1)" table current depth =
          resolveText "=SUM(A1,$b2 <= A1)" table current depth := by
  intro e
  have parsed : Expr.parse "sum( a1 ,\n$b2<=a1)" = .ok (e "a1" "$b2") := by cbv
  have parsed' : Expr.parse "SUM(A1,$b2 <= A1)" = .ok (e "A1" "$b2") := by cbv
  have accepted : (isAccepted "C1" "=sum( a1 ,\n$b2<=a1)" ["=SUM(A1,$b2 <= A1)"]).1 = true := by
    decide +kernel
  have formula : formulaBody? "=sum( a1 ,\n$b2<=a1)" = some "sum( a1 ,\n$b2<=a1)" := rfl
  have formula' : formulaBody? "=SUM(A1,$b2 <= A1)" = some "SUM(A1,$b2 <= A1)" := rfl
  obtain ⟨read, resolved⟩ := isAccepted_faithful
  exact ⟨parsed, parsed', accepted, read _ _ parsed,
    resolved _ _ _ _ _ _ _ formula formula' parsed parsed' accepted⟩

end Spreadsheet.Grading
