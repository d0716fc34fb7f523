import Frontend.Proofs.Operation

namespace Frontend

def Executor.Accepts (ex : Executor) (left right : Value) : Prop :=
  left.kind = ex.left ∧ ∃ rule, ex.rules.find? (·.right = right.kind) = some rule

theorem Kind.exists_executor {op : Operator} {left right : Value} {rule : OperandRule}
    (h : left.kind.rule? op right.kind = some rule) :
    ∃ ex, left.kind.executor op = .ok ex ∧ ex.Accepts left right ∧
      ex.apply left right = rule.apply left right := by
  obtain ⟨rs, hrs, hfind⟩ := Option.bind_eq_some_iff.mp h
  refine ⟨⟨op, left.kind, rs⟩, ?_, ⟨rfl, rule, hfind⟩, ?_⟩
  · simp [executor, rules, hrs, Except.map]
  · simp [Executor.apply, hfind]

theorem Kind.outcome_checkOperands (left : Kind) (op : Operator) (right : Kind) :
    (left.checkOperands op right).outcome =
      match left.rules? op with
      | Option.none => .error (.operatorNotDefined op left)
      | some rs =>
        match rs.find? (·.right = right) with
        | some rule => .ok rule.result
        | Option.none => .error (.mismatch op left right) := by
  unfold checkOperands rules
  cases left.rules? op with
  | none => rfl
  | some rs =>
    rw [Logged.bind_ok (a := rs) rfl]
    dsimp only
    cases rs.find? (·.right = right) <;> rfl

theorem Kind.exists_rule_of_checkOperands {left : Kind} {op : Operator} {right k : Kind}
    (h : (left.checkOperands op right).outcome = .ok k) :
    ∃ rule, left.rule? op right = some rule := by
  rw [outcome_checkOperands] at h
  rw [rule?]
  cases hrs : left.rules? op with
  | none => simp [hrs] at h
  | some rs =>
    cases hf : rs.find? (·.right = right) with
    | none => simp [hrs, hf] at h
    | some rule => exact ⟨rule, by simp [hf]⟩

namespace Expr

def nodeKind (op : Operator) (left right : Kind) : Except TypeError Kind :=
  match left.rule? op right with
  | some rule => .ok rule.result
  | none => .error (.mismatch op left right)

def nodeValue (op : Operator) (left right : Value) : Except TypeError Value :=
  match left.kind.rule? op right.kind with
  | some rule => rule.apply left right
  | none => .error (.mismatch op left.kind right.kind)

theorem outcome_checkPair (op : Operator) (left right : Kind) :
    (checkPair op left right).outcome = nodeKind op left right := by
  simp only [checkPair, Kind.outcome_checkOperands, nodeKind, Kind.rule?]
  cases left.rules? op with
  | none => rfl
  | some rs =>
    dsimp only [Option.bind_some]
    cases rs.find? (·.right = right) <;> rfl

theorem outcome_check_binary (op : Operator) (lhs rhs : Expr) :
    (binary op lhs rhs).check.outcome =
      lhs.check.outcome >>= fun left => rhs.check.outcome >>= fun right =>
        nodeKind op left right := by
  simp only [check, Logged.outcome_bind, outcome_checkPair]

theorem outcome_evaluate_binary (op : Operator) (lhs rhs : Expr) :
    (binary op lhs rhs).evaluate.outcome =
      lhs.evaluate.outcome >>= fun left => rhs.evaluate.outcome >>= fun right =>
        nodeValue op left right := by
  simp only [evaluate, Logged.outcome_bind, outcome_checkPair]
  congr 1
  funext left
  congr 1
  funext right
  rw [nodeKind, nodeValue]
  cases hr : left.kind.rule? op right.kind with
  | none => rfl
  | some rule =>
    obtain ⟨ex, hex, -, happly⟩ := Kind.exists_executor hr
    simp only [hex, Logged.ofExcept, bind, Except.bind, happly]
    cases rule.apply left right <;> rfl

theorem evaluate_binary_of_ok {lhs rhs : Expr} {left right : Value}
    (hl : lhs.evaluate.outcome = .ok left) (hr : rhs.evaluate.outcome = .ok right)
    (op : Operator) : (binary op lhs rhs).evaluate.outcome = nodeValue op left right := by
  rw [outcome_evaluate_binary, hl, hr]
  rfl

/-- How the outcome of an evaluation goes with that of a check. -/
def Agrees : Except TypeError Value → Except TypeError Kind → Prop
  | .ok v, c => c = .ok v.kind
  | .error (.mismatch op left right), c => c = .error (.mismatch op left right)
  | .error (.divisionByZero op k), _ => (op = .slash ∨ op = .percent) ∧ k = .int
  | .error (.operatorNotDefined _ _), _ | .error (.methodNotDefined _ _), _ => False

theorem operator_of_dividesByZero {op : Operator} {left right : Value}
    (h : dividesByZero op left right) : op = .slash ∨ op = .percent := by
  unfold dividesByZero at h
  split at h <;> simp_all

theorem nodeValue_agrees (op : Operator) (left right : Value) :
    Agrees (nodeValue op left right) (nodeKind op left.kind right.kind) := by
  rw [nodeValue, nodeKind]
  cases hr : left.kind.rule? op right.kind with
  | none => rfl
  | some rule =>
    obtain ⟨hz, he⟩ | ⟨v, hv, hk⟩ := (rule?_yields hr).cases
    · simp only [he]
      exact ⟨operator_of_dividesByZero hz, rfl⟩
    · simp only [hv, ← hk]
      rfl

theorem Agrees.bind {x : Except TypeError Value} {c : Except TypeError Kind} (h : Agrees x c)
    {f : Value → Except TypeError Value} {g : Kind → Except TypeError Kind}
    (hfg : ∀ v, x = .ok v → Agrees (f v) (g v.kind)) : Agrees (x >>= f) (c >>= g) := by
  cases x with
  | ok v =>
    obtain rfl : c = .ok v.kind := h
    exact hfg v rfl
  | error e =>
    cases e with
    | mismatch op left right =>
      obtain rfl : c = .error (.mismatch op left right) := h
      rfl
    | divisionByZero op k => exact h
    | operatorNotDefined | methodNotDefined => exact h.elim

theorem agrees (e : Expr) : Agrees e.evaluate.outcome e.check.outcome := by
  induction e with
  | literal v => rfl
  | binary op lhs rhs ihl ihr =>
    rw [outcome_evaluate_binary, outcome_check_binary]
    exact ihl.bind fun left _ => ihr.bind fun right _ => nodeValue_agrees op left right

theorem check_of_evaluate {e : Expr} {v : Value} (h : e.evaluate.outcome = .ok v) :
    e.check.outcome = .ok v.kind := by
  have hagrees := agrees e
  rwa [h] at hagrees

theorem not_mismatch_of_rule? {op : Operator} {left right : Value} {rule : OperandRule}
    (h : left.kind.rule? op right.kind = some rule) (op' : Operator) (k k' : Kind) :
    rule.apply left right ≠ .error (.mismatch op' k k') := by
  obtain ⟨-, he⟩ | ⟨v, hv, -⟩ := (rule?_yields h).cases
  · simp [he]
  · simp [hv]

/-- Checking and evaluating go together: the kind of a value and a mismatch of operands are known
before evaluation, which can only fail on its own by dividing an integer by zero. The executor's
tests repeat the check and pass whenever it did. -/
theorem evaluate_sound (e : Expr) :
    (∀ v, e.evaluate.outcome = .ok v → e.check.outcome = .ok v.kind) ∧
    (∀ op left right, e.evaluate.outcome = .error (.mismatch op left right) →
      e.check.outcome = .error (.mismatch op left right)) ∧
    (∀ op k, e.evaluate.outcome = .error (.divisionByZero op k) →
      (op = .slash ∨ op = .percent) ∧ k = .int) ∧
    (∀ op k, e.evaluate.outcome ≠ .error (.operatorNotDefined op k)) ∧
    (∀ k method, e.evaluate.outcome ≠ .error (.methodNotDefined k method)) ∧
    (∀ k, e.check.outcome = .ok k →
      (∃ v, e.evaluate.outcome = .ok v ∧ v.kind = k) ∨
      ∃ op, e.evaluate.outcome = .error (.divisionByZero op .int)) ∧
    (∀ (op : Operator) (left right : Value) (k : Kind),
      (left.kind.checkOperands op right.kind).outcome = .ok k →
      ∃ ex, left.kind.executor op = .ok ex ∧ ex.Accepts left right ∧
        ∀ op' k₁ k₂, ex.apply left right ≠ .error (.mismatch op' k₁ k₂)) := by
  have h := agrees e
  refine ⟨?_, ?_, ?_, ?_, ?_, ?_, ?_⟩
  · intro v hv
    rwa [hv] at h
  · intro op left right hm
    rwa [hm] at h
  · intro op k hd
    rwa [hd] at h
  · intro op k ho
    rwa [ho] at h
  · intro k method hm
    rwa [hm] at h
  · intro k hk
    rw [hk] at h
    cases he : e.evaluate.outcome with
    | ok v =>
      rw [he] at h
      exact .inl ⟨v, rfl, (Except.ok.inj h).symm⟩
    | error err =>
      rw [he] at h
      cases err with
      | mismatch op left right => exact absurd h (by simp [Agrees])
      | divisionByZero op k' => exact .inr ⟨op, by rw [h.2]⟩
      | operatorNotDefined | methodNotDefined => exact h.elim
  · intro op left right k hk
    obtain ⟨rule, hr⟩ := Kind.exists_rule_of_checkOperands hk
    obtain ⟨ex, hex, hacc, happly⟩ := Kind.exists_executor hr
    refine ⟨ex, hex, hacc, ?_⟩
    rw [happly]
    exact not_mismatch_of_rule? hr

theorem evaluate_sound_quotients :
    let quotient (v : Value) := binary .slash (literal (.int 7)) (literal v)
    ((quotient (.int 2)).evaluate.outcome = .ok (.int 3) ∧
      (quotient (.int 2)).check.outcome = .ok .int) ∧
    ((quotient (.bool true)).evaluate.outcome = .error (.mismatch .slash .int .bool) ∧
      (quotient (.bool true)).check.outcome = .error (.mismatch .slash .int .bool)) ∧
    ((quotient (.int 0)).check.outcome = .ok .int ∧
      ∃ op, (quotient (.int 0)).evaluate.outcome = .error (.divisionByZero op .int)) ∧
    ∃ ex, Kind.int.executor .slash = .ok ex ∧ ex.Accepts (.int 7) (.int 0) ∧
      ∀ op k₁ k₂, ex.apply (.int 7) (.int 0) ≠ .error (.mismatch op k₁ k₂) := by
  intro quotient
  have hvalue : (quotient (.int 2)).evaluate.outcome = .ok (.int 3) := rfl
  have hmismatch : (quotient (.bool true)).evaluate.outcome =
      .error (.mismatch .slash .int .bool) := rfl
  have hkind : (quotient (.int 0)).check.outcome = .ok .int := rfl
  have hzero : ∀ v : Value, (quotient (.int 0)).evaluate.outcome ≠ .ok v := by
    rintro v ⟨⟩
  obtain ⟨hsound, -, -, -, -, -, -⟩ := evaluate_sound (quotient (.int 2))
  obtain ⟨-, hfault, -, -, -, -, -⟩ := evaluate_sound (quotient (.bool true))
  obtain ⟨-, -, -, -, -, hdivides, haccepts⟩ := evaluate_sound (quotient (.int 0))
  refine ⟨⟨hvalue, hsound _ hvalue⟩, ⟨hmismatch, hfault _ _ _ hmismatch⟩, ⟨hkind, ?_⟩,
    haccepts .slash (.int 7) (.int 0) .int rfl⟩
  obtain ⟨v, hv, -⟩ | hop := hdivides _ hkind
  · exact absurd hv (hzero v)
  · exact hop

end Expr

end Frontend
