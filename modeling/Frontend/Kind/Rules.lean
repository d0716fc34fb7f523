import Frontend.Event
import Frontend.Kind.Operation

namespace Frontend

structure OperandRule where
  right : Kind
  result : Kind
  apply : Operation

def OperandRule.text (r : OperandRule) : String :=
  "OperandRule \x7b rhs: " ++ r.right.name ++ ", result: " ++ r.result.name ++ ", .. \x7d"

structure Executor where
  op : Operator
  left : Kind
  rules : List OperandRule

namespace Executor

/-- Both operands are checked again before the operation is carried out. -/
def apply (e : Executor) (left right : Value) : Except TypeError Value :=
  if left.kind ≠ e.left then .error (.mismatch e.op left.kind right.kind)
  else match e.rules.find? (·.right = right.kind) with
    | some rule => rule.apply left right
    | none => .error (.mismatch e.op left.kind right.kind)

def text (e : Executor) : String :=
  "Executor \x7b op: " ++ e.op.name ++ ", lhs: " ++ e.left.name ++ ", rules: [" ++
    ", ".intercalate (e.rules.map OperandRule.text) ++ "] \x7d"

end Executor

namespace Kind

/-- The right operands that each kind accepts, its own kind first; `none` where the operator is
not defined. A float beside an integer makes the result of arithmetic a float. -/
def rules? (k : Kind) (op : Operator) : Option (List OperandRule) :=
  match k with
  | int =>
    (Operation.arithmetic? op).map (fun f => [⟨int, int, f⟩, ⟨float, float, f⟩]) <|>
    (Operation.bitwise? op).map (fun f => [⟨int, int, f⟩]) <|>
    (Operation.comparison? op).map (fun f => [⟨int, bool, f⟩, ⟨float, bool, f⟩])
  | float =>
    (Operation.arithmetic? op).map (fun f => [⟨float, float, f⟩, ⟨int, float, f⟩]) <|>
    (Operation.comparison? op).map (fun f => [⟨float, bool, f⟩, ⟨int, bool, f⟩])
  | bool => (Operation.logical? op).map (fun f => [⟨bool, bool, f⟩])
  | none => Option.none

def rules (k : Kind) (op : Operator) : Except TypeError (List OperandRule) :=
  match k.rules? op with
  | some rs => .ok rs
  | Option.none => .error (.operatorNotDefined op k)

def legalOperands (k : Kind) (op : Operator) : Except TypeError (List Kind) :=
  (k.rules op).map fun rs => rs.map OperandRule.right

def executor (k : Kind) (op : Operator) : Except TypeError Executor :=
  (k.rules op).map fun rs => ⟨op, k, rs⟩

/-- The kind of the result of `op` on operands of these kinds. A pair of kinds that the rules of
the left one leave out is reported. -/
def checkOperands (left : Kind) (op : Operator) (right : Kind) : Logged TypeError Kind := do
  let rules ← Logged.ofExcept (left.rules op)
  match rules.find? (·.right = right) with
  | some rule => return rule.result
  | Option.none =>
    Logged.report (.rejected op left right)
    Logged.ofExcept (.error (.mismatch op left right))

end Kind

end Frontend
