import Spreadsheet.Proofs.Formula.Calculation
import Spreadsheet.Proofs.Formula.Outcome

namespace Spreadsheet.Expr

variable {text : String} {e : Expr}

theorem inGrid_of_parse {r : Reference} (parsed : parse text = .ok e) (member : r ∈ e.references) :
    Address.parse r.text = .ok r.address ∧ r.address.InGrid := by
  have read := (wellFormed_of_parse parsed).parse_reference e r member
  exact ⟨read, Address.inGrid_of_parse read⟩

/-- A formula that is read is well-formed, and its references are in the grid. With any values of
    the cells it gives a double, or it fails with a division by zero or a number that is too large
    or not real. A text that is long enough may also have a mean of more numbers than a double can
    count. -/
theorem eval_of_parse (parsed : parse text = .ok e) :
    e.WellFormed text.length ∧
      (∀ r ∈ e.references, Address.parse r.text = .ok r.address ∧ r.address.InGrid) ∧
      ∀ value : Address → Float,
        (∃ x, (e.eval fun a => .ok (.double (value a))).outcome = .ok (.double x)) ∨
          ∃ f, (e.eval fun a => .ok (.double (value a))).outcome = .error f ∧
            ((f.kind = .division ∨ f.kind = .expression ∧
                (f.message = "Numeric overflow" ∨ f.message = "Result is not a real number")) ∨
              f = .wholeTooLarge ∧ 2 ^ 1023 ≤ text.length) := by
  have formed := wellFormed_of_parse parsed
  refine ⟨formed, fun r member => inGrid_of_parse parsed member, fun value => ?_⟩
  have calculates := eval_calculates (v := fun a => .ok (.double (value a))) e formed
    fun r _ => ⟨value r.address, rfl⟩
  refine calculates.imp_right ?_
  rintro ⟨f, failed, failure⟩
  exact ⟨f, failed, failure.imp Failure.IsArithmetic.kind_message id⟩

theorem eval_of_parse_of_mean :
    let e := Expr.call "AVERAGE" [
      .binary .power (.ref ⟨⟨0, 0, false, false⟩, "A1"⟩)
        (.unary .minus (.ref ⟨⟨1, 1, false, false⟩, "b2"⟩)),
      .percent (.ref ⟨⟨1, 1, false, false⟩, "b2"⟩)]
    parse "average(A1^-b2,b2%)" = .ok e ∧
      e.WellFormed "average(A1^-b2,b2%)".length ∧
      (∀ r ∈ e.references, Address.parse r.text = .ok r.address ∧ r.address.InGrid) ∧
      ∀ value : Address → Float,
        (∃ x, (e.eval fun a => .ok (.double (value a))).outcome = .ok (.double x)) ∨
          ∃ f, (e.eval fun a => .ok (.double (value a))).outcome = .error f ∧
            ((f.kind = .division ∨ f.kind = .expression ∧
                (f.message = "Numeric overflow" ∨ f.message = "Result is not a real number")) ∨
              f = .wholeTooLarge ∧ 2 ^ 1023 ≤ "average(A1^-b2,b2%)".length) := by
  intro e
  have parsed : parse "average(A1^-b2,b2%)" = .ok e := by cbv
  exact ⟨parsed, eval_of_parse parsed⟩

end Spreadsheet.Expr
