import Frontend.Kind
import Frontend.Operator

namespace Frontend

inductive TypeError
  | operatorNotDefined (op : Operator) (kind : Kind)
  | mismatch (op : Operator) (left right : Kind)
  | methodNotDefined (kind : Kind) (method : String)
  | divisionByZero (op : Operator) (kind : Kind)
  deriving DecidableEq, Repr

namespace TypeError

def message : TypeError → String
  | operatorNotDefined op kind =>
    "operator '" ++ op.symbol ++ "' is not defined for type " ++ kind.name
  | mismatch op left right =>
    "operator '" ++ op.symbol ++ "' cannot be applied to types " ++ left.name ++ " and " ++
      right.name
  | methodNotDefined kind method =>
    "method '" ++ method ++ "' is not defined for type " ++ kind.name
  | divisionByZero op kind => "division by zero in " ++ kind.name ++ " '" ++ op.symbol ++ "'"

/-- Where both operands are known, an undefined operator is a mismatch of their kinds. -/
def withRight (right : Kind) : TypeError → TypeError
  | operatorNotDefined op kind => mismatch op kind right
  | e => e

end TypeError

end Frontend
