import Frontend.Proofs.Soundness

namespace Frontend

/-- The operands that an operation has a result for, before it comes to the mismatch that closes
it. -/
inductive Operation.Covers : Operation → Value → Value → Prop
  | arithmetic (op : Operator) (onInts : Int64 → Int64 → Option Int64)
      (onFloats : Binary64 → Binary64 → Binary64) {left right : Value} {p : Value.Pair}
      (h : left.promote? right = some p) : Covers (arithmetic op onInts onFloats) left right
  | comparison (op : Operator) (holds : Option Ordering → Bool) {left right : Value}
      {p : Value.Pair} (h : left.promote? right = some p) : Covers (comparison op holds) left right
  | bitwise (op : Operator) (f : Int64 → Int64 → Int64) (a b : Int64) :
      Covers (bitwise op f) (.int a) (.int b)
  | logical (op : Operator) (f : Bool → Bool → Bool) (a b : Bool) :
      Covers (logical op f) (.bool a) (.bool b)

theorem Value.exists_promote {left right : Value} {k : Kind}
    (h : left.kind.promoted? right.kind = some k) : ∃ p, left.promote? right = some p := by
  cases left <;> cases right <;> cases h <;> exact ⟨_, rfl⟩

namespace Operation

variable {op : Operator} {f : Operation} {left right : Value}

theorem arithmetic_covers (hf : arithmetic? op = some f) {k : Kind}
    (hk : left.kind.promoted? right.kind = some k) : f.Covers left right := by
  obtain ⟨p, hp⟩ := Value.exists_promote hk
  cases op <;> cases hf <;> exact .arithmetic _ _ _ hp

theorem comparison_covers (hf : comparison? op = some f) {k : Kind}
    (hk : left.kind.promoted? right.kind = some k) : f.Covers left right := by
  obtain ⟨p, hp⟩ := Value.exists_promote hk
  cases op <;> cases hf <;> exact .comparison _ _ hp

theorem bitwise_covers (hf : bitwise? op = some f) (hl : left.kind = .int)
    (hr : right.kind = .int) : f.Covers left right := by
  cases left <;> cases hl
  cases right <;> cases hr
  cases op <;> cases hf <;> exact .bitwise _ _ _ _

theorem logical_covers (hf : logical? op = some f) (hl : left.kind = .bool)
    (hr : right.kind = .bool) : f.Covers left right := by
  cases left <;> cases hl
  cases right <;> cases hr
  cases op <;> cases hf <;> exact .logical _ _ _ _

end Operation

namespace Kind

variable {op : Operator}

theorem Row.covers {left right : Value} {rule : OperandRule} (h : Row op left.kind rule)
    (hright : rule.right = right.kind) : rule.apply.Covers left right := by
  generalize hleft : left.kind = k at h
  cases h with
  | arithmetic hf hk => exact Operation.arithmetic_covers hf (by rw [hleft, ← hright, hk])
  | comparison hf hk => exact Operation.comparison_covers hf (by rw [hleft, ← hright, hk])
  | bitwise hf => exact Operation.bitwise_covers hf hleft hright.symm
  | logical hf => exact Operation.logical_covers hf hleft hright.symm

def Admits (left : Kind) (op : Operator) (right : Kind) : Prop :=
  ∃ ks, left.legalOperands op = .ok ks ∧ right ∈ ks

theorem rules_cases (k : Kind) (op : Operator) :
    (∃ rs, k.rules? op = some rs ∧ k.executor op = .ok ⟨op, k, rs⟩ ∧
      k.legalOperands op = .ok (rs.map OperandRule.right)) ∨
    (k.rules? op = Option.none ∧ k.executor op = .error (.operatorNotDefined op k) ∧
      k.legalOperands op = .error (.operatorNotDefined op k)) := by
  unfold executor legalOperands rules
  cases k.rules? op with
  | none => exact .inr ⟨rfl, rfl, rfl⟩
  | some rs => exact .inl ⟨rs, rfl, rfl, rfl⟩

theorem admits_iff {left right : Kind} :
    left.Admits op right ↔ ∃ rule, left.rule? op right = some rule := by
  obtain ⟨rs, hrs, -, hlegal⟩ | ⟨hrs, -, hlegal⟩ := rules_cases left op
  · rw [← Option.isSome_iff_exists, rule?, hrs, Option.bind_some, List.find?_isSome]
    simp [Admits, hlegal]
  · simp [Admits, hlegal, rule?, hrs]

instance (left : Kind) (op : Operator) (right : Kind) : Decidable (left.Admits op right) :=
  decidable_of_iff (left.rule? op right).isSome (by rw [Option.isSome_iff_exists, admits_iff])

theorem rule?_eq_none_iff {left right : Kind} :
    left.rule? op right = Option.none ↔ ¬ left.Admits op right := by
  rw [admits_iff, ← Option.isSome_iff_exists, Option.not_isSome_iff_eq_none]

end Kind

namespace Executor

variable {k : Kind} {op : Operator} {ex : Executor} {left right : Value}

theorem apply_of_refused (hex : k.executor op = .ok ex)
    (h : left.kind ≠ k ∨ ¬ k.Admits op right.kind) :
    ex.apply left right = .error (.mismatch op left.kind right.kind) := by
  obtain ⟨rs, hrs, he, -⟩ | ⟨-, he, -⟩ := k.rules_cases op
  · obtain rfl : _ = ex := Except.ok.inj (he.symm.trans hex)
    by_cases hk : left.kind = k
    · have hfind : rs.find? (·.right = right.kind) = none := by
        have hrule := Kind.rule?_eq_none_iff.mpr (h.resolve_left (· hk))
        rwa [Kind.rule?, hrs] at hrule
      simp [apply, hfind]
    · simp [apply, hk]
  · simp [he] at hex

theorem apply_of_admits (hex : left.kind.executor op = .ok ex)
    (h : left.kind.Admits op right.kind) :
    ∃ rule ∈ ex.rules, left.kind.rule? op right.kind = some rule ∧
      ex.apply left right = rule.apply left right := by
  obtain ⟨rule, hrule⟩ := Kind.admits_iff.mp h
  obtain ⟨rs, hrs, he, -⟩ | ⟨-, he, -⟩ := left.kind.rules_cases op
  · obtain rfl : _ = ex := Except.ok.inj (he.symm.trans hex)
    have hfind : rs.find? (·.right = right.kind) = some rule := by
      rwa [Kind.rule?, hrs] at hrule
    exact ⟨rule, List.mem_of_find?_eq_some hfind, hrule, by simp [apply, hfind]⟩
  · simp [he] at hex

end Executor

theorem Kind.checkOperands_of_rule? {left right : Kind} {op : Operator} {rule : OperandRule}
    (h : left.rule? op right = some rule) :
    (left.checkOperands op right).outcome = .ok rule.result := by
  obtain ⟨rs, hrs, hfind⟩ := Option.bind_eq_some_iff.mp h
  simp only [outcome_checkOperands, hrs, hfind]

theorem dividesByZero_iff {op : Operator} {left right : Value} :
    dividesByZero op left right ↔
      left.kind = .int ∧ right = .int 0 ∧ (op = .slash ∨ op = .percent) := by
  cases left <;> cases right <;> cases op <;> simp [dividesByZero, Value.kind]

/-- An executor is there exactly if its kind lists operands for the operator. It refuses what the
list leaves out, and on all else divides an integer by zero or comes to a value of the kind that
the check promises, by an operation that covers the operands. -/
theorem executor_exact (k : Kind) (op : Operator) (left right : Value) :
    ((∃ ex, k.executor op = .ok ex) ↔ ∃ ks, k.legalOperands op = .ok ks) ∧
    (∀ err, k.executor op = .error err ∨ k.legalOperands op = .error err →
      k.executor op = .error (.operatorNotDefined op k) ∧
      k.legalOperands op = .error (.operatorNotDefined op k)) ∧
    ∀ ex, k.executor op = .ok ex →
      (left.kind ≠ k ∨ ¬ k.Admits op right.kind →
        ex.apply left right = .error (.mismatch op left.kind right.kind)) ∧
      (left.kind = k → k.Admits op right.kind →
        (k = .int ∧ right = .int 0 ∧ (op = .slash ∨ op = .percent) →
          ex.apply left right = .error (.divisionByZero op .int)) ∧
        (¬ (k = .int ∧ right = .int 0 ∧ (op = .slash ∨ op = .percent)) →
          ∃ v, ex.apply left right = .ok v ∧
            (k.checkOperands op right.kind).outcome = .ok v.kind) ∧
        ∃ rule ∈ ex.rules, rule.right = right.kind ∧
          ex.apply left right = rule.apply left right ∧ rule.apply.Covers left right) := by
  refine ⟨?_, ?_, ?_⟩
  · obtain ⟨rs, -, he, hl⟩ | ⟨-, he, hl⟩ := k.rules_cases op <;> simp [he, hl]
  · obtain ⟨rs, -, he, hl⟩ | ⟨-, he, hl⟩ := k.rules_cases op <;> simp [he, hl]
  · intro ex hex
    refine ⟨Executor.apply_of_refused hex, ?_⟩
    rintro rfl hadmits
    obtain ⟨rule, hmem, hrule, happly⟩ := Executor.apply_of_admits hex hadmits
    obtain ⟨hrow, hright⟩ := Kind.row_of_rule? hrule
    have hyields := rule?_yields hrule
    rw [Yields, ← happly] at hyields
    refine ⟨?_, ?_, rule, hmem, hright, happly, hrow.covers hright⟩
    · intro hz
      rwa [if_pos (dividesByZero_iff.mpr hz)] at hyields
    · intro hz
      rw [if_neg (mt dividesByZero_iff.mp hz)] at hyields
      obtain ⟨v, hv, hk⟩ := hyields
      exact ⟨v, hv, by rw [hk, Kind.checkOperands_of_rule? hrule]⟩

theorem executor_exact_quotients :
    (Kind.bool.executor .slash = .error (.operatorNotDefined .slash .bool) ∧
      Kind.bool.legalOperands .slash = .error (.operatorNotDefined .slash .bool)) ∧
    ∃ ex, Kind.int.executor .slash = .ok ex ∧
      ex.apply (.bool true) (.int 2) = .error (.mismatch .slash .bool .int) ∧
      ex.apply (.int 7) (.int 0) = .error (.divisionByZero .slash .int) ∧
      ∃ v, ex.apply (.int 7) (.int 2) = .ok v ∧
        (Kind.int.checkOperands .slash .int).outcome = .ok v.kind := by
  obtain ⟨ex, hex⟩ : ∃ ex, Kind.int.executor .slash = .ok ex := ⟨_, rfl⟩
  have hadmits : Kind.int.Admits .slash .int := by decide
  obtain ⟨-, hnone, -⟩ := executor_exact .bool .slash (.bool true) (.int 2)
  obtain ⟨-, -, hrefused⟩ := executor_exact .int .slash (.bool true) (.int 2)
  obtain ⟨-, -, hzero⟩ := executor_exact .int .slash (.int 7) (.int 0)
  obtain ⟨-, -, hvalue⟩ := executor_exact .int .slash (.int 7) (.int 2)
  refine ⟨hnone _ (.inl rfl), ex, hex, (hrefused ex hex).1 (.inl (by decide)), ?_, ?_⟩
  · exact ((hzero ex hex).2 rfl hadmits).1 ⟨rfl, rfl, .inl rfl⟩
  · exact ((hvalue ex hex).2 rfl hadmits).2.1 (by simp)

end Frontend
