import Spreadsheet.Formula.Parse
import Spreadsheet.Proofs.Address.Spelling
import Spreadsheet.Proofs.Failure

namespace Spreadsheet

theorem Column.index_fails (letters : String) :
    Fails (fun f => f.kind = .address) (Column.index letters) := by
  simp only [Column.index]
  split
  · split
    · exact .error rfl
    · exact .ok _
  · exact .error rfl

/-- The failure of a text that has the parts of an address, with more digits than can be read. -/
def Failure.OfLongAddress (text : String) (f : Failure) : Prop :=
  ∃ s : Address.Spelling, s.Valid ∧ text.toList = s.chars ∧ digitLimit < s.digits.length ∧
    f = .rowTooLong s.digits.length

theorem Failure.OfLongAddress.ofLongRow {text : String} {f : Failure} (h : f.OfLongAddress text) :
    f.OfLongRow text := by
  obtain ⟨s, valid, whole, long, rfl⟩ := h
  refine ⟨s.digits, ?_, valid.digits, long, rfl⟩
  rw [whole]
  exact ((List.suffix_append _ _).trans ((List.suffix_append _ _).trans
    (List.suffix_append _ _))).isInfix

namespace Address

variable {text : String} {f : Failure}

theorem parse_fails (text : String) :
    Fails (fun f => f.kind = .address ∨ f.OfLongAddress text) (parse text) := by
  unfold parse
  split
  · exact .error (.inl rfl)
  · rename_i s found
    obtain ⟨valid, same⟩ := Spelling.ofChars?_eq_some_iff.mp found
    split
    · rename_i long
      exact .error (.inr ⟨s, valid, same, long, rfl⟩)
    · dsimp only
      split
      · exact .error (.inl rfl)
      · have column := Column.index_fails (String.ofList s.letters)
        split
        · rename_i failure outcome
          exact .error (.inl (column _ outcome))
        · exact .ok _

theorem parse_of_longAddress (h : f.OfLongAddress text) : parse text = .error f := by
  obtain ⟨s, valid, whole, long, rfl⟩ := h
  unfold parse
  rw [Spelling.ofChars?_eq_some_iff.mpr ⟨valid, whole⟩]
  exact if_pos long

/-- A text is an address or none, unless its row number is too long to be read. -/
theorem parse?_eq_error_iff : parse? text = .error f ↔ f.OfLongAddress text := by
  constructor
  · intro failed
    unfold parse? at failed
    split at failed
    · cases failed
    · rename_i failure outcome
      split at failed
      · cases failed
      · rename_i other
        cases failed
        exact (parse_fails text _ outcome).resolve_left other
  · intro h
    have failed := parse_of_longAddress h
    obtain ⟨s, -, -, -, rfl⟩ := h
    unfold parse?
    rw [failed]
    rfl

end Address

namespace Token

theorem scanExponent_fails (position : Nat) (cs : List Char) :
    Fails Failure.IsTextual (scanExponent position cs).outcome := by
  cases cs with
  | nil => exact .ok _
  | cons mark rest =>
    simp only [scanExponent]
    split
    · split
      · exact .error trivial
      · exact .ok _
    · exact .ok _

theorem Mantissa.scanExponent_fails (m : Mantissa) (position : Nat) (cs : List Char) :
    Fails Failure.IsTextual (m.scanExponent position cs).outcome := by
  unfold Mantissa.scanExponent
  split
  · exact Token.scanExponent_fails position cs
  · exact .ok _

theorem Mantissa.number_fails (m : Mantissa) (position : Nat) (exponent after : List Char) :
    Fails Failure.IsTextual (m.number position exponent after) := by
  unfold Mantissa.number
  split
  · exact .error trivial
  · split
    · exact .error trivial
    · split
      · exact .error trivial
      · exact .ok _

theorem scanNumber_fails (position : Nat) (cs : List Char) :
    Fails Failure.IsTextual (scanNumber position cs).outcome :=
  (Mantissa.scanExponent_fails _ position _).bind fun exponent =>
    Mantissa.number_fails _ position exponent _

theorem scanSymbol_fails (position : Nat) (cs : List Char) :
    Fails Failure.IsTextual (scanSymbol position cs).outcome := by
  unfold scanSymbol
  split
  all_goals first | exact .ok _ | exact .error trivial

theorem scan_fails (position : Nat) (cs : List Char) :
    Fails Failure.IsTextual (scan position cs).outcome := by
  unfold scan
  split
  · exact scanSymbol_fails _ _
  · split
    · exact scanNumber_fails _ _
    · split
      · exact .ok _
      · exact scanSymbol_fails _ _

theorem lex_fails (position : Nat) (cs : List Char) :
    Fails Failure.IsTextual (lex position cs).outcome := by
  fun_induction lex position cs with
  | case1 position => exact .ok _
  | case2 position c tail blank ih => exact ih
  | case3 position c tail word e scanned =>
    exact .error (scan_fails position _ _ scanned)
  | case4 position c tail word kind scanned others ih => exact ih.map _

theorem tokenize_fails (text : String) : Fails Failure.IsTextual (tokenize text) :=
  lex_fails _ _

end Token

/-- A failure of reading some tokens: of their text, or of a row number in one of them. -/
def Failure.OfTokens (ts : List Token) (f : Failure) : Prop :=
  f.IsTextual ∨ ∃ t ∈ ts, f.OfLongRow t.text

theorem Failure.OfTokens.mono {ts us : List Token} {f : Failure} (h : f.OfTokens ts)
    (subset : ts ⊆ us) : f.OfTokens us :=
  h.imp_right fun ⟨t, member, row⟩ => ⟨t, subset member, row⟩

theorem Failure.OfTokens.isLocal {ts : List Token} {f : Failure} (h : f.OfTokens ts) :
    f.IsLocal :=
  h.elim IsTextual.isLocal fun ⟨_, _, row⟩ => row.isLocal

namespace Expr

theorem ofNumber_fails (text : String) (position : Nat) :
    Fails Failure.IsTextual (ofNumber text position) := by
  simp only [ofNumber]
  split
  · exact .ok _
  · exact .error trivial

theorem ofWord_fails (text : String) (position : Nat) :
    Fails (fun f => f.IsTextual ∨ f.OfLongRow text) (ofWord text position) := by
  unfold ofWord
  split
  · rename_i failure outcome
    exact .error (.inr (Address.parse?_eq_error_iff.mp outcome).ofLongRow)
  · exact .error (.inl trivial)
  · exact .ok _

theorem ofCall_fails (f : Function) (arguments : List Expr) :
    Fails Failure.IsTextual (ofCall f arguments) := by
  apply Fails.map
  unfold Arity.check
  split
  · exact .ok _
  · exact .error trivial

end Expr

end Spreadsheet
