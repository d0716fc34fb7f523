import Frontend.Proofs.Failure
import Mathlib.Data.List.Forall2

namespace Frontend

def Event.isEvaluation (event : Event) : Bool := event.message = "evaluated binary expression"

namespace Expr

def evaluations (e : Expr) : List Event := e.evaluate.events.filter Event.isEvaluation

def applyLogged (op : Operator) (left right : Value) : Logged TypeError Value := do
  let _ ← checkPair op left.kind right.kind
  let executor ← Logged.ofExcept (left.kind.executor op)
  let result ← Logged.ofExcept (executor.apply left right)
  Logged.report (.evaluated op left right result)
  return result

theorem evaluate_binary (op : Operator) (lhs rhs : Expr) :
    (binary op lhs rhs).evaluate =
      lhs.evaluate >>= fun left => rhs.evaluate >>= fun right => applyLogged op left right :=
  rfl

theorem filter_checkPair (op : Operator) (left right : Kind) :
    (checkPair op left right).events.filter Event.isEvaluation = [] := by
  unfold checkPair Kind.checkOperands Kind.rules
  cases left.rules? op with
  | none => rfl
  | some rs =>
    rw [Logged.bind_ok (a := rs) rfl]
    dsimp only
    cases rs.find? (·.right = right) <;> rfl

theorem filter_applyLogged (op : Operator) (left right : Value) :
    (applyLogged op left right).events.filter Event.isEvaluation =
      match nodeValue op left right with
      | .ok result => [.evaluated op left right result]
      | .error _ => [] := by
  have hchecked := outcome_checkPair op left.kind right.kind
  rw [nodeKind] at hchecked
  rw [applyLogged, nodeValue]
  cases hrule : left.kind.rule? op right.kind with
  | none =>
    simp only [hrule] at hchecked
    rw [Logged.bind_error hchecked, filter_checkPair]
  | some rule =>
    simp only [hrule] at hchecked
    obtain ⟨ex, hex, -, happly⟩ := Kind.exists_executor hrule
    rw [Logged.bind_ok hchecked, List.filter_append, filter_checkPair, hex,
      Logged.bind_ok (x := Logged.ofExcept (.ok ex)) rfl]
    dsimp only
    cases hvalue : rule.apply left right with
    | ok v =>
      rw [Logged.bind_ok (happly.trans hvalue)]
      rfl
    | error err =>
      rw [Logged.bind_error (happly.trans hvalue)]
      rfl

variable {op : Operator} {lhs rhs : Expr}

theorem evaluations_of_left_error {err : TypeError} (hl : lhs.evaluate.outcome = .error err) :
    (binary op lhs rhs).evaluations = lhs.evaluations := by
  rw [evaluations, evaluate_binary, Logged.bind_error hl, evaluations]

theorem evaluations_of_right_error {left : Value} {err : TypeError}
    (hl : lhs.evaluate.outcome = .ok left) (hr : rhs.evaluate.outcome = .error err) :
    (binary op lhs rhs).evaluations = lhs.evaluations ++ rhs.evaluations := by
  rw [evaluations, evaluate_binary, Logged.bind_ok hl, Logged.bind_error hr, List.filter_append]
  rfl

theorem evaluations_of_ok {left right : Value} (hl : lhs.evaluate.outcome = .ok left)
    (hr : rhs.evaluate.outcome = .ok right) :
    (binary op lhs rhs).evaluations = lhs.evaluations ++ rhs.evaluations ++
      (applyLogged op left right).events.filter Event.isEvaluation := by
  rw [evaluations, evaluate_binary, Logged.bind_ok hl, Logged.bind_ok hr, List.filter_append,
    List.filter_append, ← List.append_assoc]
  rfl

namespace Node

def expr (n : Node) : Expr := binary n.op n.lhs n.rhs

/-- The event tells the values of a node and of its operands, as each is evaluated. -/
def IsReportedBy (n : Node) (event : Event) : Prop :=
  ∃ left right result, n.lhs.evaluate.outcome = .ok left ∧ n.rhs.evaluate.outcome = .ok right ∧
    n.expr.evaluate.outcome = .ok result ∧ event = .evaluated n.op left right result

/-- A node that has no value though both of its operands have one. -/
def Fails (n : Node) (err : TypeError) : Prop :=
  ∃ left right, n.lhs.evaluate.outcome = .ok left ∧ n.rhs.evaluate.outcome = .ok right ∧
    n.expr.evaluate.outcome = .error err

end Node

/-- The events of a run over nodes: one for each of them, or for each before the one that fails. -/
def IsLogOf (events : List Event) (ns : List Node) : Except TypeError Value → Prop
  | .ok _ => List.Forall₂ Node.IsReportedBy ns events
  | .error err => ∃ before n after, ns = before ++ n :: after ∧ n.Fails err ∧
      List.Forall₂ Node.IsReportedBy before events

theorem IsLogOf.append_nodes {events : List Event} {ns : List Node} {err : TypeError}
    (h : IsLogOf events ns (.error err)) (later : List Node) :
    IsLogOf events (ns ++ later) (.error err) := by
  obtain ⟨before, n, after, rfl, hfails, hbefore⟩ := h
  exact ⟨before, n, after ++ later, by simp, hfails, hbefore⟩

theorem IsLogOf.after {events later : List Event} {ns ms : List Node}
    (h : List.Forall₂ Node.IsReportedBy ns events) {x : Except TypeError Value}
    (hlater : IsLogOf later ms x) : IsLogOf (events ++ later) (ns ++ ms) x := by
  cases x with
  | ok v => exact List.rel_append h hlater
  | error err =>
    obtain ⟨before, n, after, rfl, hfails, hbefore⟩ := hlater
    exact ⟨ns ++ before, n, after, by simp, hfails, List.rel_append h hbefore⟩

theorem isLogOf_root {left right : Value} (hl : lhs.evaluate.outcome = .ok left)
    (hr : rhs.evaluate.outcome = .ok right) :
    IsLogOf ((applyLogged op left right).events.filter Event.isEvaluation) [⟨op, lhs, rhs⟩]
      (binary op lhs rhs).evaluate.outcome := by
  have hroot := evaluate_binary_of_ok hl hr op
  rw [filter_applyLogged]
  cases hvalue : nodeValue op left right with
  | ok v =>
    rw [hroot, hvalue]
    exact .cons ⟨left, right, v, hl, hr, hroot.trans hvalue, rfl⟩ .nil
  | error err =>
    rw [hroot, hvalue]
    exact ⟨[], _, [], rfl, ⟨left, right, hl, hr, hroot.trans hvalue⟩, .nil⟩

theorem isLogOf_evaluations (e : Expr) : IsLogOf e.evaluations e.nodes e.evaluate.outcome := by
  induction e with
  | literal v => exact .nil
  | binary op lhs rhs ihl ihr =>
    rw [nodes]
    cases hl : lhs.evaluate.outcome with
    | error err =>
      rw [hl] at ihl
      rw [evaluations_of_left_error hl, outcome_evaluate_binary, hl, List.append_assoc]
      exact ihl.append_nodes _
    | ok left =>
      rw [hl] at ihl
      cases hr : rhs.evaluate.outcome with
      | error err =>
        rw [hr] at ihr
        rw [evaluations_of_right_error hl hr, outcome_evaluate_binary, hl, hr]
        exact (IsLogOf.after ihl ihr).append_nodes _
      | ok right =>
        rw [hr] at ihr
        rw [evaluations_of_ok hl hr]
        exact IsLogOf.after (List.rel_append ihl ihr) (isLogOf_root hl hr)

theorem length_evaluations_lt {e : Expr} {err : TypeError} (h : e.evaluate.outcome = .error err) :
    e.evaluations.length < e.nodes.length := by
  have hlog := isLogOf_evaluations e
  rw [h] at hlog
  obtain ⟨before, n, after, hnodes, -, hbefore⟩ := hlog
  rw [← hbefore.length_eq, hnodes, List.length_append, List.length_cons]
  omega

theorem getLast?_evaluations {e : Expr} {v : Value} (h : e.evaluate.outcome = .ok v)
    (hne : e.nodes ≠ []) :
    ∃ op left right, e.evaluations.getLast? = some (.evaluated op left right v) := by
  cases e with
  | literal v => exact absurd rfl hne
  | binary op lhs rhs =>
    have hlog := isLogOf_evaluations (binary op lhs rhs)
    rw [h] at hlog
    have hreverse := List.forall₂_reverse_iff.mpr hlog
    rw [nodes, List.reverse_append, List.reverse_singleton, List.singleton_append,
      List.forall₂_cons_left_iff] at hreverse
    obtain ⟨event, rest, ⟨left, right, result, -, -, hresult, rfl⟩, -, hevents⟩ := hreverse
    obtain rfl := Except.ok.inj (hresult.symm.trans h)
    refine ⟨op, left, right, ?_⟩
    rw [List.getLast?_eq_head?_reverse, hevents]
    rfl

/-- The evaluations reported on the way to the value of an expression are those of its nodes in
post-order, all of them or those before the first that fails. So they are as many as the nodes
exactly if there is a value, and the last of them tells it. -/
theorem evaluations_in_post_order (e : Expr) :
    (∀ v, e.evaluate.outcome = .ok v → List.Forall₂ Node.IsReportedBy e.nodes e.evaluations) ∧
    (∀ err, e.evaluate.outcome = .error err →
      ∃ before n after, e.nodes = before ++ n :: after ∧ n.Fails err ∧
        List.Forall₂ Node.IsReportedBy before e.evaluations) ∧
    ((∃ v, e.evaluate.outcome = .ok v) ↔ e.evaluations.length = e.nodes.length) ∧
    ∀ v, e.evaluate.outcome = .ok v → e.nodes ≠ [] →
      ∃ op left right, e.evaluations.getLast? = some (.evaluated op left right v) := by
  have hlog := isLogOf_evaluations e
  refine ⟨?_, ?_, ?_, fun v => getLast?_evaluations⟩
  · intro v hv
    rwa [hv] at hlog
  · intro err herr
    rwa [herr] at hlog
  · constructor
    · rintro ⟨v, hv⟩
      rw [hv] at hlog
      exact hlog.length_eq.symm
    · intro hlength
      cases he : e.evaluate.outcome with
      | ok v => exact ⟨v, rfl⟩
      | error err => exact absurd hlength (Nat.ne_of_lt (length_evaluations_lt he))

theorem evaluations_in_post_order_division :
    let sum := binary .plus (literal (.int 1)) (literal (.int 2))
    let quotient := binary .slash sum (literal (.int 0))
    let e := binary .dash quotient (binary .star sum sum)
    (sum.evaluate.outcome = .ok (.int 3) ∧ sum.nodes ≠ [] ∧
      ∃ op left right, sum.evaluations.getLast? = some (.evaluated op left right (.int 3))) ∧
    e.evaluate.outcome = .error (.divisionByZero .slash .int) ∧
      e.evaluations = [.evaluated .plus (.int 1) (.int 2) (.int 3)] ∧ e.nodes.length = 6 ∧
      ∃ before n after, e.nodes = before ++ n :: after ∧ n.Fails (.divisionByZero .slash .int) ∧
        List.Forall₂ Node.IsReportedBy before e.evaluations := by
  intro sum quotient e
  have hsum : sum.evaluate.outcome = .ok (.int 3) := rfl
  have hnodes : sum.nodes ≠ [] := List.cons_ne_nil _ _
  have he : e.evaluate.outcome = .error (.divisionByZero .slash .int) := rfl
  exact ⟨⟨hsum, hnodes, (evaluations_in_post_order sum).2.2.2 _ hsum hnodes⟩, he, rfl, rfl,
    (evaluations_in_post_order e).2.1 _ he⟩

end Expr

end Frontend
