import Frontend.Proofs.Failure
import Frontend.Proofs.Readability

namespace Frontend.Expr

def isArithmetic : Expr → Bool
  | literal v => v.kind.isNumber
  | binary op lhs rhs =>
    op ∈ [.plus, .dash, .star, .slash, .percent] && lhs.isArithmetic && rhs.isArithmetic

/-- The kind that the literals ask for: one float among them is enough. -/
def dominantKind (e : Expr) : Kind :=
  if ∃ v ∈ e.literals, v.kind = .float then .float else .int

theorem isArithmetic_binary {op : Operator} {lhs rhs : Expr}
    (h : (binary op lhs rhs).isArithmetic) :
    (∃ f, Operation.arithmetic? op = some f) ∧ lhs.isArithmetic ∧ rhs.isArithmetic := by
  simp only [isArithmetic, Bool.and_eq_true, decide_eq_true_eq] at h
  obtain ⟨⟨hop, hl⟩, hr⟩ := h
  refine ⟨?_, hl, hr⟩
  cases op <;> simp at hop <;> exact ⟨_, rfl⟩

theorem isNumber_of_mem_literals {e : Expr} (h : e.isArithmetic) :
    ∀ v ∈ e.literals, v.kind.isNumber := by
  induction e with
  | literal v => simpa [literals, isArithmetic] using h
  | binary op lhs rhs ihl ihr =>
    obtain ⟨-, hl, hr⟩ := isArithmetic_binary h
    exact List.forall_mem_append.mpr ⟨ihl hl, ihr hr⟩

theorem isArithmetic_of_mem_nodes {e : Expr} (h : e.isArithmetic) {n : Node} (hn : n ∈ e.nodes) :
    n.lhs.isArithmetic ∧ n.rhs.isArithmetic := by
  induction e with
  | literal v => simp [nodes] at hn
  | binary op lhs rhs ihl ihr =>
    obtain ⟨-, hl, hr⟩ := isArithmetic_binary h
    simp only [nodes, List.mem_append, List.mem_singleton] at hn
    obtain (hn | hn) | rfl := hn
    · exact ihl hl hn
    · exact ihr hr hn
    · exact ⟨hl, hr⟩

theorem dominantKind_literal {v : Value} (h : v.kind.isNumber) :
    (literal v).dominantKind = v.kind := by
  cases v with
  | int | float => simp [dominantKind, literals, Value.kind]
  | bool | none => contradiction

theorem promoted?_dominantKind (op : Operator) (lhs rhs : Expr) :
    lhs.dominantKind.promoted? rhs.dominantKind = some (binary op lhs rhs).dominantKind := by
  simp only [dominantKind, literals, List.mem_append, or_and_right, exists_or]
  by_cases hl : ∃ v ∈ lhs.literals, v.kind = .float <;>
    by_cases hr : ∃ v ∈ rhs.literals, v.kind = .float <;>
      simp [hl, hr, Kind.promoted?]

theorem kind_of_dominantKind_int {e : Expr} (h : e.isArithmetic) (hk : e.dominantKind = .int) :
    ∀ v ∈ e.literals, v.kind = .int := by
  intro v hv
  have hnumber := isNumber_of_mem_literals h v hv
  have hfloat : v.kind ≠ .float := by
    intro hf
    rw [dominantKind, if_pos ⟨v, hv, hf⟩] at hk
    contradiction
  cases hv : v.kind <;> simp_all [Kind.isNumber]

theorem nodeKind_arithmetic {op : Operator} {f : Operation}
    (hf : Operation.arithmetic? op = some f) {left right k : Kind}
    (hk : left.promoted? right = some k) : nodeKind op left right = .ok k := by
  cases left <;> cases right <;> cases hk <;> cases op <;> cases hf <;> rfl

theorem check_of_isArithmetic {e : Expr} (h : e.isArithmetic) :
    e.check.outcome = .ok e.dominantKind := by
  induction e with
  | literal v =>
    rw [dominantKind_literal h]
    rfl
  | binary op lhs rhs ihl ihr =>
    obtain ⟨⟨f, hf⟩, hl, hr⟩ := isArithmetic_binary h
    rw [outcome_check_binary, ihl hl, ihr hr]
    exact nodeKind_arithmetic hf (promoted?_dominantKind op lhs rhs)

theorem evaluate_of_check {e : Expr} {k : Kind} (h : e.check.outcome = .ok k) :
    (∃ v, e.evaluate.outcome = .ok v ∧ v.kind = k) ∨
      ∃ op, e.evaluate.outcome = .error (.divisionByZero op .int) := by
  cases he : e.evaluate.outcome with
  | ok v => exact .inl ⟨v, rfl, Except.ok.inj ((check_of_evaluate he).symm.trans h)⟩
  | error err =>
    have hne : failure? e.check.outcome ≠ failure? e.evaluate.outcome := by simp [h, he, failure?]
    rw [← he]
    exact .inr ((failure?_ne_iff e).mp hne).exists_error

theorem kind_of_evaluate {e : Expr} (h : e.isArithmetic) {v : Value}
    (he : e.evaluate.outcome = .ok v) : v.kind = e.dominantKind :=
  Except.ok.inj ((check_of_evaluate he).symm.trans (check_of_isArithmetic h))

theorem literals_of_dividesByZero {n : Node} (hl : n.lhs.isArithmetic) (hr : n.rhs.isArithmetic)
    (h : n.DividesByZero) :
    (n.op = .slash ∨ n.op = .percent) ∧ ∀ v ∈ n.lhs.literals ++ n.rhs.literals, v.kind = .int := by
  obtain ⟨left, right, hleft, hright, hz⟩ := h
  obtain ⟨hk, rfl, hop⟩ := dividesByZero_iff.mp hz
  refine ⟨hop, List.forall_mem_append.mpr ⟨?_, ?_⟩⟩
  · exact kind_of_dominantKind_int hl ((kind_of_evaluate hl hleft).symm.trans hk)
  · exact kind_of_dominantKind_int hr (kind_of_evaluate hr hright).symm

theorem exists_dividesByZero {e : Expr} {op : Operator} {k : Kind}
    (h : e.evaluate.outcome = .error (.divisionByZero op k)) :
    ∃ before n after, e.nodes = before ++ n :: after ∧ (∀ m ∈ before, m.evalFault? = none) ∧
      n.op = op ∧ n.DividesByZero := by
  rw [← failure?_eq_some_iff, failure?_evaluate] at h
  obtain ⟨before, n, after, hnodes, hn, hbefore⟩ := List.findSome?_eq_some_iff.mp h
  obtain ⟨_, _, -, -, -, herr⟩ | ⟨hz, herr⟩ := Node.evalFault?_eq_some_iff.mp hn
  · contradiction
  · obtain ⟨rfl, -⟩ := TypeError.divisionByZero.inj herr
    exact ⟨before, n, after, hnodes, hbefore, rfl, hz⟩

theorem integers_of_divisionByZero {e : Expr} (h : e.isArithmetic) {op : Operator} {k : Kind}
    (herr : e.evaluate.outcome = .error (.divisionByZero op k)) :
    ∃ before n after, e.nodes = before ++ n :: after ∧ (∀ m ∈ before, m.evalFault? = none) ∧
      n.op = op ∧ n.DividesByZero ∧ (op = .slash ∨ op = .percent) ∧
      ∀ v ∈ n.lhs.literals ++ n.rhs.literals, v.kind = .int := by
  obtain ⟨before, n, after, hnodes, hbefore, rfl, hz⟩ := exists_dividesByZero herr
  have hn : n ∈ e.nodes := by simp [hnodes]
  obtain ⟨hl, hr⟩ := isArithmetic_of_mem_nodes h hn
  exact ⟨before, n, after, hnodes, hbefore, rfl, hz, literals_of_dividesByZero hl hr hz⟩

/-- One float literal makes an arithmetic expression a float, in the check as in the evaluation.
Only a quotient or remainder of integers alone can fail, so that a float on one side of each of
them leads to a value. -/
theorem float_dominates {e : Expr} (h : e.isArithmetic) :
    e.check.outcome = .ok e.dominantKind ∧
    ((∃ v, e.evaluate.outcome = .ok v ∧ v.kind = e.dominantKind) ∨
      ∃ op, e.evaluate.outcome = .error (.divisionByZero op .int)) ∧
    (∀ op k, e.evaluate.outcome = .error (.divisionByZero op k) →
      ∃ before n after, e.nodes = before ++ n :: after ∧ (∀ m ∈ before, m.evalFault? = none) ∧
        n.op = op ∧ n.DividesByZero ∧ (op = .slash ∨ op = .percent) ∧
        ∀ v ∈ n.lhs.literals ++ n.rhs.literals, v.kind = .int) ∧
    ((∀ n ∈ e.nodes, n.op = .slash ∨ n.op = .percent →
        ∃ v ∈ n.lhs.literals ++ n.rhs.literals, v.kind = .float) →
      ∃ v, e.evaluate.outcome = .ok v ∧ v.kind = e.dominantKind) := by
  have hcheck := check_of_isArithmetic h
  refine ⟨hcheck, evaluate_of_check hcheck, fun op k => integers_of_divisionByZero h, ?_⟩
  intro hfloat
  refine (evaluate_of_check hcheck).resolve_right ?_
  rintro ⟨op, herr⟩
  obtain ⟨before, n, after, hnodes, -, rfl, -, hop, hints⟩ := integers_of_divisionByZero h herr
  obtain ⟨v, hv, hk⟩ := hfloat n (by simp [hnodes]) hop
  rw [hints v hv] at hk
  contradiction

theorem float_dominates_zero_divisors :
    let zero := literal (.float (Binary64.ofPattern false 0))
    let e := binary .plus zero (binary .slash (literal (.int 7)) (literal (.int 0)))
    let f := binary .plus (literal (.int 1)) (binary .percent (literal (.int 7)) zero)
    (e.isArithmetic ∧ e.check.outcome = .ok .float ∧
      e.evaluate.outcome = .error (.divisionByZero .slash .int) ∧
      ∃ n ∈ e.nodes, n.op = .slash ∧
        ∀ v ∈ n.lhs.literals ++ n.rhs.literals, v.kind = .int) ∧
    f.isArithmetic ∧ f.check.outcome = .ok .float ∧
      ∃ v, f.evaluate.outcome = .ok v ∧ v.kind = .float := by
  intro zero e f
  have he : e.isArithmetic := by decide
  have hf : f.isArithmetic := by decide
  have herr : e.evaluate.outcome = .error (.divisionByZero .slash .int) := rfl
  obtain ⟨hecheck, -, hsource, -⟩ := float_dominates he
  obtain ⟨hfcheck, -, -, hvalue⟩ := float_dominates hf
  obtain ⟨before, n, after, hnodes, -, hop, -, -, hints⟩ := hsource _ _ herr
  refine ⟨⟨he, hecheck, herr, n, by simp [hnodes], hop, hints⟩, hf, hfcheck, ?_⟩
  exact hvalue (by decide)

end Frontend.Expr
