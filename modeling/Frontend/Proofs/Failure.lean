import Frontend.Proofs.Executor

namespace Frontend

def failure? {ε α : Type} : Except ε α → Option ε
  | .ok _ => none
  | .error e => some e

theorem failure?_eq_none_iff {ε α : Type} {x : Except ε α} :
    failure? x = none ↔ ∃ a, x = .ok a := by
  cases x <;> simp [failure?]

theorem failure?_eq_some_iff {ε α : Type} {x : Except ε α} {e : ε} :
    failure? x = some e ↔ x = .error e := by
  cases x <;> simp [failure?]

theorem Logged.events_prefix_bind {ε α β : Type} (x : Logged ε α) (f : α → Logged ε β) :
    x.events <+: (x >>= f).events := by
  cases h : x.outcome with
  | ok a => simp [bind_ok h]
  | error e => simp [bind_error h]

namespace Expr

structure Node where
  op : Operator
  lhs : Expr
  rhs : Expr

/-- The operators in post-order, each after its operands. -/
def nodes : Expr → List Node
  | literal _ => []
  | binary op lhs rhs => lhs.nodes ++ rhs.nodes ++ [⟨op, lhs, rhs⟩]

def kindFault? (op : Operator) (left right : Kind) : Option TypeError :=
  if left.Admits op right then none else some (.mismatch op left right)

def valueFault? (op : Operator) (left right : Value) : Option TypeError :=
  if ¬ left.kind.Admits op right.kind then some (.mismatch op left.kind right.kind)
  else if dividesByZero op left right then some (.divisionByZero op .int)
  else none

namespace Node

/-- What is wrong with a node itself, where both operands come to something. -/
def fault? {α : Type} (run : Expr → Except TypeError α)
    (wrong? : Operator → α → α → Option TypeError) (n : Node) : Option TypeError :=
  match run n.lhs, run n.rhs with
  | .ok left, .ok right => wrong? n.op left right
  | _, _ => none

def checkFault? : Node → Option TypeError := fault? (·.check.outcome) kindFault?

def evalFault? : Node → Option TypeError := fault? (·.evaluate.outcome) valueFault?

def DividesByZero (n : Node) : Prop :=
  ∃ left right, n.lhs.evaluate.outcome = .ok left ∧ n.rhs.evaluate.outcome = .ok right ∧
    dividesByZero n.op left right

theorem fault?_eq_some_iff {α : Type} {run : Expr → Except TypeError α}
    {wrong? : Operator → α → α → Option TypeError} {n : Node} {err : TypeError} :
    n.fault? run wrong? = some err ↔
      ∃ left right, run n.lhs = .ok left ∧ run n.rhs = .ok right ∧
        wrong? n.op left right = some err := by
  unfold fault?
  cases run n.lhs <;> cases run n.rhs <;> simp

end Node

/-- Whatever is computed from the operands upwards fails with the first fault in post-order. -/
theorem failure?_eq_findSome? {α : Type} (run : Expr → Except TypeError α)
    {node : Operator → α → α → Except TypeError α}
    {wrong? : Operator → α → α → Option TypeError}
    (hliteral : ∀ v, failure? (run (literal v)) = none)
    (hbinary : ∀ op lhs rhs, run (binary op lhs rhs) =
      run lhs >>= fun left => run rhs >>= fun right => node op left right)
    (hnode : ∀ op left right, failure? (node op left right) = wrong? op left right) (e : Expr) :
    failure? (run e) = e.nodes.findSome? (Node.fault? run wrong?) := by
  induction e with
  | literal v => rw [hliteral, nodes, List.findSome?_nil]
  | binary op lhs rhs ihl ihr =>
    rw [nodes, List.findSome?_append, List.findSome?_append, ← ihl, ← ihr, hbinary,
      List.findSome?_singleton, Node.fault?]
    cases run lhs with
    | error err => rfl
    | ok left =>
      cases run rhs with
      | error err => rfl
      | ok right => exact hnode op left right

theorem failure?_nodeKind (op : Operator) (left right : Kind) :
    failure? (nodeKind op left right) = kindFault? op left right := by
  rw [nodeKind, kindFault?]
  cases hr : left.rule? op right with
  | none =>
    rw [if_neg (Kind.rule?_eq_none_iff.mp hr)]
    rfl
  | some rule =>
    rw [if_pos (Kind.admits_iff.mpr ⟨rule, hr⟩)]
    rfl

theorem failure?_nodeValue (op : Operator) (left right : Value) :
    failure? (nodeValue op left right) = valueFault? op left right := by
  rw [nodeValue, valueFault?]
  cases hr : left.kind.rule? op right.kind with
  | none =>
    rw [if_pos (Kind.rule?_eq_none_iff.mp hr)]
    rfl
  | some rule =>
    rw [if_neg (not_not_intro (Kind.admits_iff.mpr ⟨rule, hr⟩))]
    have hyields := rule?_yields hr
    rw [Yields] at hyields
    split at hyields
    · rw [if_pos ‹_›]
      simp only [hyields, failure?]
    · rw [if_neg ‹_›]
      obtain ⟨v, hv, -⟩ := hyields
      simp only [hv, failure?]

theorem failure?_check (e : Expr) :
    failure? e.check.outcome = e.nodes.findSome? Node.checkFault? :=
  failure?_eq_findSome? (·.check.outcome) (fun _ => rfl) outcome_check_binary
    failure?_nodeKind e

theorem failure?_evaluate (e : Expr) :
    failure? e.evaluate.outcome = e.nodes.findSome? Node.evalFault? :=
  failure?_eq_findSome? (·.evaluate.outcome) (fun _ => rfl) outcome_evaluate_binary
    failure?_nodeValue e

theorem exists_append_cons {α : Type} {xs ys before after : List α} {n : α}
    (h : xs ++ ys = before ++ n :: after) :
    (∃ mid, xs = before ++ n :: mid) ∨ ∃ mid, before = xs ++ mid ∧ ys = mid ++ n :: after := by
  obtain ⟨mid, hbefore, hys⟩ | ⟨mid, hxs, hafter⟩ := List.append_eq_append_iff.mp h
  · exact .inr ⟨mid, hbefore, hys⟩
  · cases mid with
    | nil => exact .inr ⟨[], by simpa using hxs.symm, hafter.symm⟩
    | cons m mid =>
      obtain ⟨rfl, -⟩ := List.cons.inj hafter
      exact .inl ⟨mid, hxs⟩

theorem nodes_split {e : Expr} {before after : List Node} {n : Node}
    (h : e.nodes = before ++ n :: after) : n.lhs.nodes ++ n.rhs.nodes <:+ before := by
  induction e generalizing before after with
  | literal v => simp [nodes] at h
  | binary op lhs rhs ihl ihr =>
    obtain ⟨mid, hoperands⟩ | ⟨mid, rfl, hown⟩ := exists_append_cons h
    · obtain ⟨mid', hlhs⟩ | ⟨mid', rfl, hrhs⟩ := exists_append_cons hoperands
      · exact ihl hlhs
      · exact List.suffix_append_of_suffix (ihr hrhs)
    · obtain ⟨rfl, hn⟩ | ⟨-, hn⟩ := List.singleton_eq_append_iff.mp hown
      · obtain ⟨rfl, -⟩ := List.cons.inj hn
        simp
      · simp at hn

theorem admits_of_dividesByZero {op : Operator} {left right : Value}
    (h : dividesByZero op left right) : left.kind.Admits op right.kind := by
  obtain ⟨hleft, rfl, rfl | rfl⟩ := dividesByZero_iff.mp h <;> rw [hleft] <;> decide

theorem kindFault?_eq_some_iff {op : Operator} {left right : Kind} {err : TypeError} :
    kindFault? op left right = some err ↔
      ¬ left.Admits op right ∧ err = .mismatch op left right := by
  unfold kindFault?
  split <;> simp [*, eq_comm]

theorem valueFault?_eq_some_iff {op : Operator} {left right : Value} {err : TypeError} :
    valueFault? op left right = some err ↔
      (¬ left.kind.Admits op right.kind ∧ err = .mismatch op left.kind right.kind) ∨
        (dividesByZero op left right ∧ err = .divisionByZero op .int) := by
  unfold valueFault?
  by_cases hadmits : left.kind.Admits op right.kind
  · by_cases hz : dividesByZero op left right <;> simp [hadmits, hz, eq_comm]
  · have hz := mt admits_of_dividesByZero hadmits
    simp [hadmits, hz, eq_comm]

namespace Node

variable {n : Node} {err : TypeError}

theorem checkFault?_eq_some_iff : n.checkFault? = some err ↔
    ∃ left right, n.lhs.check.outcome = .ok left ∧ n.rhs.check.outcome = .ok right ∧
      ¬ left.Admits n.op right ∧ err = .mismatch n.op left right := by
  rw [checkFault?, fault?_eq_some_iff]
  simp only [kindFault?_eq_some_iff]

theorem evalFault?_eq_some_iff : n.evalFault? = some err ↔
    (∃ left right, n.lhs.evaluate.outcome = .ok left ∧ n.rhs.evaluate.outcome = .ok right ∧
      ¬ left.kind.Admits n.op right.kind ∧ err = .mismatch n.op left.kind right.kind) ∨
    (n.DividesByZero ∧ err = .divisionByZero n.op .int) := by
  rw [evalFault?, fault?_eq_some_iff]
  simp only [valueFault?_eq_some_iff, DividesByZero, and_or_left, exists_or, ← and_assoc,
    exists_and_right]

theorem checkFault?_of_evaluate {left right : Value} (hl : n.lhs.evaluate.outcome = .ok left)
    (hr : n.rhs.evaluate.outcome = .ok right) (hrefused : ¬ left.kind.Admits n.op right.kind) :
    n.checkFault? = some (.mismatch n.op left.kind right.kind) :=
  checkFault?_eq_some_iff.mpr
    ⟨_, _, check_of_evaluate hl, check_of_evaluate hr, hrefused, rfl⟩

end Node

theorem checkFault?_eq_none {e : Expr} {before after : List Node} {n : Node}
    (h : e.nodes = before ++ n :: after) (hbefore : ∀ m ∈ before, m.evalFault? = none)
    (hn : n.evalFault? = none) : n.checkFault? = none := by
  have hoperand : ∀ operand : Expr, operand.nodes ⊆ before →
      ∃ v, operand.evaluate.outcome = .ok v := by
    intro operand hsub
    rw [← failure?_eq_none_iff, failure?_evaluate, List.findSome?_eq_none_iff]
    exact fun m hm => hbefore m (hsub hm)
  have hsub := (nodes_split h).subset
  obtain ⟨left, hl⟩ := hoperand n.lhs fun m hm => hsub (List.mem_append_left _ hm)
  obtain ⟨right, hr⟩ := hoperand n.rhs fun m hm => hsub (List.mem_append_right _ hm)
  rw [Option.eq_none_iff_forall_ne_some] at hn ⊢
  intro err hcheck
  obtain ⟨left', right', hl', hr', hrefused, -⟩ := Node.checkFault?_eq_some_iff.mp hcheck
  obtain rfl := Except.ok.inj (hl'.symm.trans (check_of_evaluate hl))
  obtain rfl := Except.ok.inj (hr'.symm.trans (check_of_evaluate hr))
  exact hn _ (Node.evalFault?_eq_some_iff.mpr (.inl ⟨left, right, hl, hr, hrefused, rfl⟩))

/-- A division by zero stands before all that the check objects to. -/
def DividesFirst (e : Expr) : Prop :=
  ∃ before n after, e.nodes = before ++ n :: after ∧ n.DividesByZero ∧
    ∀ m ∈ before, m.checkFault? = none

theorem check_ne_divisionByZero (e : Expr) (op : Operator) (k : Kind) :
    e.check.outcome ≠ .error (.divisionByZero op k) := by
  rw [ne_eq, ← failure?_eq_some_iff, failure?_check]
  intro h
  obtain ⟨n, -, hn⟩ := List.exists_of_findSome?_eq_some h
  obtain ⟨left, right, -, -, -, herr⟩ := Node.checkFault?_eq_some_iff.mp hn
  contradiction

theorem dividesFirst_of_error {e : Expr} {op : Operator} {k : Kind}
    (h : e.evaluate.outcome = .error (.divisionByZero op k)) : e.DividesFirst := by
  rw [← failure?_eq_some_iff, failure?_evaluate] at h
  obtain ⟨before, n, after, hnodes, hn, hbefore⟩ := List.findSome?_eq_some_iff.mp h
  obtain ⟨_, _, -, -, -, herr⟩ | ⟨hz, -⟩ := Node.evalFault?_eq_some_iff.mp hn
  · contradiction
  · refine ⟨before, n, after, hnodes, hz, fun m hm => ?_⟩
    obtain ⟨front, back, rfl⟩ := List.append_of_mem hm
    rw [List.append_assoc, List.cons_append] at hnodes
    exact checkFault?_eq_none hnodes (fun m hm => hbefore m (List.mem_append_left _ hm))
      (hbefore m hm)

theorem DividesFirst.exists_error {e : Expr} (h : e.DividesFirst) :
    ∃ op, e.evaluate.outcome = .error (.divisionByZero op .int) := by
  obtain ⟨before, n, after, hnodes, hz, hbefore⟩ := h
  have hn := Node.evalFault?_eq_some_iff.mpr (.inr ⟨hz, rfl⟩)
  simp only [← failure?_eq_some_iff, failure?_evaluate, hnodes, List.findSome?_append,
    List.findSome?_cons, hn]
  cases hfirst : before.findSome? Node.evalFault? with
  | none => exact ⟨n.op, rfl⟩
  | some err =>
    -- what goes wrong before that node can only be a division as well
    obtain ⟨m, hm, hfault⟩ := List.exists_of_findSome?_eq_some hfirst
    obtain ⟨left, right, hl, hr, hrefused, -⟩ | ⟨-, rfl⟩ := Node.evalFault?_eq_some_iff.mp hfault
    · have hcheck := Node.checkFault?_of_evaluate hl hr hrefused
      rw [hbefore m hm] at hcheck
      contradiction
    · exact ⟨m.op, rfl⟩

theorem failure?_ne_iff (e : Expr) :
    failure? e.check.outcome ≠ failure? e.evaluate.outcome ↔ e.DividesFirst := by
  constructor
  · intro hne
    have hagrees := agrees e
    cases he : e.evaluate.outcome with
    | ok v =>
      rw [he, check_of_evaluate he] at hne
      exact absurd rfl hne
    | error err =>
      rw [he] at hagrees hne
      cases err with
      | mismatch op left right => exact absurd (congrArg failure? hagrees) hne
      | divisionByZero op k => exact dividesFirst_of_error he
      | operatorNotDefined | methodNotDefined => exact hagrees.elim
  · intro hfirst heq
    obtain ⟨op, he⟩ := hfirst.exists_error
    rw [failure?_eq_some_iff.mpr he, failure?_eq_some_iff] at heq
    exact e.check_ne_divisionByZero op .int heq

example :
    let e := binary .plus (binary .slash (literal (.int 1)) (literal (.int 0)))
      (binary .plus (literal (.bool true)) (literal (.int 1)))
    failure? e.check.outcome = some (.mismatch .plus .bool .int) ∧
      failure? e.evaluate.outcome = some (.divisionByZero .slash .int) := by
  decide

theorem evaluate_binary_evaluates {lhs : Expr} {left : Value}
    (hl : lhs.evaluate.outcome = .ok left) (op : Operator) (rhs : Expr) :
    lhs.evaluate.events ++ rhs.evaluate.events <+: (binary op lhs rhs).evaluate.events ∧
      ∀ err, rhs.evaluate.outcome = .error err →
        (binary op lhs rhs).evaluate.outcome = .error err := by
  constructor
  · rw [evaluate, Logged.bind_ok hl]
    exact (List.prefix_append_right_inj _).mpr (Logged.events_prefix_bind _ _)
  · intro err hr
    rw [outcome_evaluate_binary, hl, hr]
    rfl

theorem exists_error_iff {α : Type} {x : Except TypeError α} {ns : List Node}
    {fault? : Node → Option TypeError} (h : failure? x = ns.findSome? fault?) :
    (∃ err, x = .error err) ↔ ∃ n ∈ ns, ∃ err, fault? n = some err := by
  simp only [← failure?_eq_some_iff, h, ← Option.isSome_iff_exists, List.findSome?_isSome_iff]

/-- The check and the evaluation of an expression each fail with the first fault in post-order.
They fail alike unless a division by zero stands before all that the check objects to. -/
theorem fails_at_first_fault (e : Expr) :
    ((∃ err, e.check.outcome = .error err) ↔
      ∃ n ∈ e.nodes, ∃ left right, n.lhs.check.outcome = .ok left ∧
        n.rhs.check.outcome = .ok right ∧ ¬ left.Admits n.op right) ∧
    (∀ err, e.check.outcome = .error err ↔ e.nodes.findSome? Node.checkFault? = some err) ∧
    ((∃ err, e.evaluate.outcome = .error err) ↔
      ∃ n ∈ e.nodes, (∃ left right, n.lhs.evaluate.outcome = .ok left ∧
        n.rhs.evaluate.outcome = .ok right ∧ ¬ left.kind.Admits n.op right.kind) ∨
        n.DividesByZero) ∧
    (∀ err, e.evaluate.outcome = .error err ↔ e.nodes.findSome? Node.evalFault? = some err) ∧
    (∀ op lhs rhs left, lhs.evaluate.outcome = .ok left →
      lhs.evaluate.events ++ rhs.evaluate.events <+: (binary op lhs rhs).evaluate.events ∧
      ∀ err, rhs.evaluate.outcome = .error err →
        (binary op lhs rhs).evaluate.outcome = .error err) ∧
    (failure? e.check.outcome ≠ failure? e.evaluate.outcome ↔ e.DividesFirst) := by
  refine ⟨?_, ?_, ?_, ?_, ?_, failure?_ne_iff e⟩
  · rw [exists_error_iff (failure?_check e)]
    simp only [Node.checkFault?_eq_some_iff]
    constructor
    · rintro ⟨n, hn, err, left, right, hl, hr, hrefused, -⟩
      exact ⟨n, hn, left, right, hl, hr, hrefused⟩
    · rintro ⟨n, hn, left, right, hl, hr, hrefused⟩
      exact ⟨n, hn, _, left, right, hl, hr, hrefused, rfl⟩
  · intro err
    rw [← failure?_eq_some_iff, failure?_check]
  · rw [exists_error_iff (failure?_evaluate e)]
    simp only [Node.evalFault?_eq_some_iff]
    constructor
    · rintro ⟨n, hn, err, ⟨left, right, hl, hr, hrefused, -⟩ | ⟨hz, -⟩⟩
      · exact ⟨n, hn, .inl ⟨left, right, hl, hr, hrefused⟩⟩
      · exact ⟨n, hn, .inr hz⟩
    · rintro ⟨n, hn, ⟨left, right, hl, hr, hrefused⟩ | hz⟩
      · exact ⟨n, hn, _, .inl ⟨left, right, hl, hr, hrefused, rfl⟩⟩
      · exact ⟨n, hn, _, .inr ⟨hz, rfl⟩⟩
  · intro err
    rw [← failure?_eq_some_iff, failure?_evaluate]
  · intro op lhs rhs left hl
    exact evaluate_binary_evaluates hl op rhs

end Expr

end Frontend
