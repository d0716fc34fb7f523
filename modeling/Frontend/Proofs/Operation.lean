import Frontend.Expr

namespace Frontend

def dividesByZero (op : Operator) (left right : Value) : Bool :=
  match op, left, right with
  | .slash, .int _, .int b | .percent, .int _, .int b => b = 0
  | _, _, _ => false

/-- What an operator that its operands allow comes to: a value of the promised kind `k`, and
nothing else but a division by zero. -/
def Yields (op : Operator) (left right : Value) (k : Kind) (r : Except TypeError Value) : Prop :=
  if dividesByZero op left right then r = .error (.divisionByZero op .int)
  else ∃ v, r = .ok v ∧ v.kind = k

theorem Yields.cases {op : Operator} {left right : Value} {k : Kind} {r : Except TypeError Value}
    (h : Yields op left right k r) :
    (dividesByZero op left right ∧ r = .error (.divisionByZero op .int)) ∨
      ∃ v, r = .ok v ∧ v.kind = k := by
  rw [Yields] at h
  by_cases hz : dividesByZero op left right
  · rw [if_pos hz] at h
    exact .inl ⟨hz, h⟩
  · rw [if_neg hz] at h
    exact .inr h

def Kind.isNumber : Kind → Bool
  | int | float => true
  | bool | none => false

def Kind.promoted? : Kind → Kind → Option Kind
  | int, int => some int
  | int, float | float, int | float, float => some float
  | _, _ => Option.none

namespace Operation

variable {op : Operator} {f : Operation} {left right : Value}

theorem arithmetic_yields (hf : arithmetic? op = some f) {k : Kind}
    (hk : left.kind.promoted? right.kind = some k) : Yields op left right k (f left right) := by
  cases left <;> cases right <;> cases hk <;> cases op <;> cases hf
  case int.int.refl.slash.refl a b | int.int.refl.percent.refl a b =>
    by_cases hb : b = 0 <;>
      simp [Yields, dividesByZero, arithmetic, Value.promote?, hb, Value.kind]
  all_goals exact ⟨_, rfl, rfl⟩

theorem comparison_yields (hf : comparison? op = some f) {k : Kind}
    (hk : left.kind.promoted? right.kind = some k) : Yields op left right .bool (f left right) := by
  cases left <;> cases right <;> cases hk <;> cases op <;> cases hf
  all_goals exact ⟨_, rfl, rfl⟩

theorem bitwise_yields (hf : bitwise? op = some f) (hl : left.kind = .int)
    (hr : right.kind = .int) : Yields op left right .int (f left right) := by
  cases left <;> cases hl
  cases right <;> cases hr
  cases op <;> cases hf
  all_goals exact ⟨_, rfl, rfl⟩

theorem logical_yields (hf : logical? op = some f) (hl : left.kind = .bool)
    (hr : right.kind = .bool) : Yields op left right .bool (f left right) := by
  cases left <;> cases hl
  cases right <;> cases hr
  cases op <;> cases hf
  all_goals exact ⟨_, rfl, rfl⟩

end Operation

def Kind.rule? (left : Kind) (op : Operator) (right : Kind) : Option OperandRule :=
  (left.rules? op).bind fun rules => rules.find? (·.right = right)

inductive Kind.Row (op : Operator) : Kind → OperandRule → Prop
  | arithmetic {left right k : Kind} {f : Operation} (hf : Operation.arithmetic? op = some f)
      (hk : left.promoted? right = some k) : Row op left ⟨right, k, f⟩
  | comparison {left right k : Kind} {f : Operation} (hf : Operation.comparison? op = some f)
      (hk : left.promoted? right = some k) : Row op left ⟨right, bool, f⟩
  | bitwise {f : Operation} (hf : Operation.bitwise? op = some f) : Row op int ⟨int, int, f⟩
  | logical {f : Operation} (hf : Operation.logical? op = some f) : Row op bool ⟨bool, bool, f⟩

theorem Kind.row_of_mem {left : Kind} {op : Operator} {rs : List OperandRule}
    (hrs : left.rules? op = some rs) {rule : OperandRule} (hmem : rule ∈ rs) :
    Row op left rule := by
  cases left with
  | int =>
    simp only [rules?, Option.orElse_eq_orElse, Option.orElse_eq_or, Option.or_eq_some_iff,
      Option.map_eq_some_iff] at hrs
    obtain ⟨f, hf, rfl⟩ | ⟨-, ⟨f, hf, rfl⟩ | ⟨-, f, hf, rfl⟩⟩ := hrs
    · obtain rfl | rfl : rule = _ ∨ rule = _ := by simpa using hmem
      · exact .arithmetic hf rfl
      · exact .arithmetic hf rfl
    · obtain rfl := List.mem_singleton.mp hmem
      exact .bitwise hf
    · obtain rfl | rfl : rule = _ ∨ rule = _ := by simpa using hmem
      · exact .comparison hf (k := int) rfl
      · exact .comparison hf (k := float) rfl
  | float =>
    simp only [rules?, Option.orElse_eq_orElse, Option.orElse_eq_or, Option.or_eq_some_iff,
      Option.map_eq_some_iff] at hrs
    obtain ⟨f, hf, rfl⟩ | ⟨-, f, hf, rfl⟩ := hrs
    · obtain rfl | rfl : rule = _ ∨ rule = _ := by simpa using hmem
      · exact .arithmetic hf rfl
      · exact .arithmetic hf rfl
    · obtain rfl | rfl : rule = _ ∨ rule = _ := by simpa using hmem
      · exact .comparison hf (k := float) rfl
      · exact .comparison hf (k := float) rfl
  | bool =>
    simp only [rules?, Option.map_eq_some_iff] at hrs
    obtain ⟨f, hf, rfl⟩ := hrs
    obtain rfl := List.mem_singleton.mp hmem
    exact .logical hf
  | none => simp [rules?] at hrs

theorem Kind.row_of_rule? {left : Kind} {op : Operator} {right : Kind} {rule : OperandRule}
    (h : left.rule? op right = some rule) : Row op left rule ∧ rule.right = right := by
  obtain ⟨rs, hrs, hfind⟩ := Option.bind_eq_some_iff.mp h
  exact ⟨row_of_mem hrs (List.mem_of_find?_eq_some hfind), by simpa using List.find?_some hfind⟩

theorem rule?_yields {op : Operator} {left right : Value} {rule : OperandRule}
    (h : left.kind.rule? op right.kind = some rule) :
    Yields op left right rule.result (rule.apply left right) := by
  obtain ⟨hrow, hright⟩ := Kind.row_of_rule? h
  generalize hleft : left.kind = k at hrow
  cases hrow with
  | arithmetic hf hk => exact Operation.arithmetic_yields hf (by rw [hleft, ← hright, hk])
  | comparison hf hk => exact Operation.comparison_yields hf (by rw [hleft, ← hright, hk])
  | bitwise hf => exact Operation.bitwise_yields hf hleft hright.symm
  | logical hf => exact Operation.logical_yields hf hleft hright.symm

end Frontend
