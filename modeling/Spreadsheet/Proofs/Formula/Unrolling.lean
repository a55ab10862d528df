import Spreadsheet.Formula.Parser

namespace Spreadsheet

theorem Token.length_le_cons (t : Token) (rest : List Token) :
    rest.length ≤ (t :: rest).length := Nat.le_succ _

def Parsed.after {α : Type} (t : Token) {rest : List Token} (p : Parsed rest.length α) :
    Parsed (t :: rest).length α := p.widen (t.length_le_cons rest)

theorem Parsed.andThen_congr {α β : Type} {n : Nat} {p q : Parsed n α}
    {f g : α → (rest : List Token) → rest.length ≤ n → Parsed rest.length β} (first : p = q)
    (next : ∀ x rest h, f x rest h = g x rest h) : p.andThen f = q.andThen g := by
  obtain rfl := first
  obtain ⟨outcome, rest, bound⟩ := p
  cases outcome with
  | error e => rfl
  | ok x => exact congrArg (Parsed.widen · bound) (next x rest bound)

namespace Expr

/-- The mutually recursive functions of the parser, with what each is given besides the tokens. -/
inductive Method where
  | operation (level : Level)
  | operand (level : Level)
  | chain (level : Level) (left : Expr)
  | signed
  | percent
  | primary
  | word
  | call (name : String)
  | arguments (f : Function) (given : List Expr)

namespace Method

abbrev Reader := Method → (ts : List Token) → Parsed ts.length Expr

def run : Reader
  | operation level => parseOperation level
  | operand level => parseOperand level
  | chain level left => parseChain level left
  | signed => parseSigned
  | percent => parsePercent
  | primary => parsePrimary
  | word => parseWord
  | call name => parseCall name
  | arguments f given => parseArguments f given

/-- A single step into each method: the methods that it calls are read by `nested`. -/
def body (nested : Reader) : Reader
  | operation level, ts =>
    (nested (operand level) ts).andThen fun left rest _ => nested (chain level left) rest
  | operand .comparison, ts => nested (operation .sum) ts
  | operand .sum, ts => nested (operation .product) ts
  | operand .product, ts => nested (operation .power) ts
  | operand .power, ts => nested signed ts
  | chain _ left, [] => .keep (.ok left) []
  | chain level left, t :: rest =>
    match level.opOfToken? t with
    | none => .keep (.ok left) (t :: rest)
    | some op =>
      ((nested (operand level) rest).andThen fun right others _ =>
        nested (chain level (.binary op left right)) others).after t
  | signed, [] => nested percent []
  | signed, t :: rest =>
    match Sign.ofToken? t with
    | some sign => ((nested signed rest).map (.unary sign)).after t
    | none => nested percent (t :: rest)
  | percent, ts => (nested primary ts).andThen fun e rest _ => e.withPercents rest
  | primary, [] => .keep (.error .unexpectedEnd) []
  | primary, t :: rest =>
    match t.kind with
    | .number text => .skip (ofNumber text t.position) t rest
    | .boolean b => .skip (.ok (ofTruth b)) t rest
    | .identifier _ => nested word (t :: rest)
    | .leftParen =>
      ((nested (operation .comparison) rest).andThen fun e others _ =>
        closeGroup e others).after t
    | _ => .keep (.error (.unexpectedToken t.text t.position)) (t :: rest)
  | word, [] => .keep (.error .unexpectedEnd) []
  | word, [t] => .skip (ofWord t.text t.position) t []
  | word, t :: next :: rest =>
    if next.kind = .leftParen then ((nested (call t.text) rest).after next).after t
    else .skip (ofWord t.text t.position) t (next :: rest)
  | call name, ts =>
    match Function.lookup? name with
    | none => .keep (.error (.unknownFunction name)) ts
    | some f =>
      match ts with
      | [] => nested (arguments f []) []
      | t :: rest =>
        if t.kind = .rightParen then .skip (ofCall f []) t rest
        else nested (arguments f []) (t :: rest)
  | arguments f given, ts =>
    (nested (operation .comparison) ts).andThen fun e rest _ =>
      match rest with
      | [] => .keep (.error .unclosedCall) []
      | t :: others =>
        if t.kind = .rightParen then .skip (ofCall f (given ++ [e])) t others
        else if t.kind = .comma then (nested (arguments f (given ++ [e])) others).after t
        else .keep (.error (.missingSeparator t.text)) (t :: others)

theorem body_run (m : Method) (ts : List Token) : m.body run ts = m.run ts := by
  cases m with
  | operation level => exact (parseOperation.eq_def level ts).symm
  | operand level =>
    have unfolded := parseOperand.eq_def level ts
    cases level <;> exact unfolded.symm
  | chain level left =>
    have unfolded := parseChain.eq_def level left ts
    cases ts <;> exact unfolded.symm
  | signed =>
    have unfolded := parseSigned.eq_def ts
    cases ts <;> exact unfolded.symm
  | percent => exact (parsePercent.eq_def ts).symm
  | primary =>
    have unfolded := parsePrimary.eq_def ts
    cases ts <;> exact unfolded.symm
  | word =>
    have unfolded := parseWord.eq_def ts
    rcases ts with - | ⟨t, - | ⟨next, rest⟩⟩ <;> exact unfolded.symm
  | call name => exact (parseCall.eq_def name ts).symm
  | arguments f given => exact (parseArguments.eq_def f given ts).symm

def rank : Method → Nat
  | operation level => level.rank + 1
  | operand level => level.rank
  | chain _ _ => 0
  | signed => 3
  | percent => 2
  | primary => 1
  | word => 0
  | call _ => 13
  | arguments _ _ => 12

theorem rank_le (m : Method) : m.rank ≤ 13 := by
  cases m with
  | operation level | operand level =>
    have bound := level.rank_le
    simp only [rank]
    omega
  | _ => exact Nat.le_of_ble_eq_true rfl

/-- What falls with each nested call: it starts at a later token, or has a smaller rank. -/
def weight (m : Method) (ts : List Token) : Nat := 16 * ts.length + m.rank

variable {p q : Reader} {m m' : Method} {ts ts' : List Token}

theorem weight_lt_of_shorter (lt : ts'.length < ts.length) : m'.weight ts' < m.weight ts := by
  have bound := m'.rank_le
  simp only [weight]
  omega

theorem weight_lt_of_rank (le : ts'.length ≤ ts.length) (lt : m'.rank < m.rank) :
    m'.weight ts' < m.weight ts := by
  simp only [weight]
  omega

theorem body_congr (same : ∀ m' ts', m'.weight ts' < m.weight ts → p m' ts' = q m' ts') :
    m.body p ts = m.body q ts := by
  have later {m' : Method} {ts' : List Token} (lt : ts'.length < ts.length) :
      p m' ts' = q m' ts' := same m' ts' (weight_lt_of_shorter lt)
  have lower {m' : Method} {ts' : List Token} (le : ts'.length ≤ ts.length)
      (lt : m'.rank < m.rank) : p m' ts' = q m' ts' := same m' ts' (weight_lt_of_rank le lt)
  cases m with
  | operation level =>
    refine Parsed.andThen_congr (lower (Nat.le_refl _) (Nat.lt_succ_self _)) fun left rest le => ?_
    exact lower le (Nat.succ_pos _)
  | operand level => cases level <;> exact lower (Nat.le_refl _) (by decide)
  | chain level left =>
    cases ts with
    | nil => rfl
    | cons t rest =>
      simp only [body]
      split
      · rfl
      · refine congrArg (Parsed.after t) ?_
        refine Parsed.andThen_congr (later (Nat.lt_succ_self _)) fun right others le => ?_
        exact later (Nat.lt_succ_of_le le)
  | signed =>
    cases ts with
    | nil => exact lower (Nat.le_refl _) (by decide)
    | cons t rest =>
      simp only [body]
      split
      · rw [later (Nat.lt_succ_self _)]
      · exact lower (Nat.le_refl _) (by decide)
  | percent =>
    exact Parsed.andThen_congr (lower (Nat.le_refl _) (by decide)) fun e rest le => rfl
  | primary =>
    cases ts with
    | nil => rfl
    | cons t rest =>
      simp only [body]
      split
      · rfl
      · rfl
      · exact lower (Nat.le_refl _) (by decide)
      · rw [later (Nat.lt_succ_self _)]
      · rfl
  | word =>
    rcases ts with - | ⟨t, - | ⟨next, rest⟩⟩
    · rfl
    · rfl
    · simp only [body]
      rw [later (Nat.lt_succ_of_lt (Nat.lt_succ_self _))]
  | call name =>
    have arguments (f : Function) : p (arguments f []) ts = q (arguments f []) ts :=
      lower (Nat.le_refl _) (Nat.lt_succ_self _)
    cases ts <;> simp only [body, arguments]
  | arguments f given =>
    refine Parsed.andThen_congr (lower (Nat.le_refl _) (Nat.lt_succ_self 11)) fun e rest le => ?_
    cases rest with
    | nil => rfl
    | cons t others => simp only [later (Nat.lt_of_succ_le le)]

/-- The bodies of the methods, nested `n` deep; `deeper` stands for the methods below. -/
def unrolled (deeper : Reader) : Nat → Reader
  | 0 => deeper
  | n + 1 => body (unrolled deeper n)

/-- A method is never nested deeper than its weight: it ends, and what lies below it does not
    count. -/
theorem unrolled_eq_run {deeper : Reader} {n : Nat} (lt : m.weight ts < n) :
    unrolled deeper n m ts = m.run ts := by
  induction n generalizing m ts with
  | zero => exact absurd lt (Nat.not_lt_zero _)
  | succ n ih =>
    have nested : m.body (unrolled deeper n) ts = m.body run ts :=
      body_congr fun m' ts' smaller => ih (Nat.lt_of_lt_of_le smaller (Nat.le_of_lt_succ lt))
    exact nested.trans (m.body_run ts)

end Method

end Expr

end Spreadsheet
