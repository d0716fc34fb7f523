import Frontend.Kind.Rules

namespace Frontend

inductive Expr
  | literal (v : Value)
  | binary (op : Operator) (lhs rhs : Expr)
  deriving Repr

namespace Expr

def text : Expr → String
  | literal v => v.text
  | binary op lhs rhs => "(" ++ lhs.text ++ " " ++ op.symbol ++ " " ++ rhs.text ++ ")"

def checkPair (op : Operator) (left right : Kind) : Logged TypeError Kind :=
  let checked := left.checkOperands op right
  ⟨checked.events, checked.outcome.mapError (·.withRight right)⟩

def check : Expr → Logged TypeError Kind
  | literal v => return v.kind
  | binary op lhs rhs => do
    let left ← lhs.check
    let right ← rhs.check
    checkPair op left right

/-- The value. Both operands are evaluated before the operator is looked at. -/
def evaluate : Expr → Logged TypeError Value
  | literal v => return v
  | binary op lhs rhs => do
    let left ← lhs.evaluate
    let right ← rhs.evaluate
    let _ ← checkPair op left.kind right.kind
    let executor ← Logged.ofExcept (left.kind.executor op)
    let result ← Logged.ofExcept (executor.apply left right)
    Logged.report (.evaluated op left right result)
    return result

end Expr

end Frontend
