import Frontend.Diagnostic.Basic
import Frontend.Kind.Rules

namespace Frontend.TypeError

def kindNames (separator : String) (ks : List Kind) : String :=
  separator.intercalate (ks.map Kind.name)

def definers (op : Operator) : List Kind := Kind.all.filter fun k => (k.rules? op).isSome

/-- The error with what would have been accepted in its place. -/
def diagnostic (e : TypeError) : Diagnostic :=
  let d := Diagnostic.error e.message
  match e with
  | operatorNotDefined op kind =>
    if op.isBinary then
      d.withNote ("'" ++ op.symbol ++ "' is defined for " ++ kindNames ", " (definers op) ++
        ", not " ++ kind.name)
    else d.withNote ("'" ++ op.symbol ++ "' is not a binary operator for any type")
  | mismatch op left _ =>
    match left.legalOperands op with
    | .ok kinds =>
      d.withNote (left.name ++ " '" ++ op.symbol ++ "' accepts a right operand of type " ++
        kindNames " or " kinds)
    | .error _ => d.withNote ("'" ++ op.symbol ++ "' is not defined for " ++ left.name)
  | methodNotDefined _ _ => d
  | divisionByZero _ _ => d.withHelp "check the divisor before dividing"

end Frontend.TypeError
