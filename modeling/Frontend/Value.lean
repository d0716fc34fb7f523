import Frontend.Binary64.Text
import Frontend.Kind

namespace Frontend

inductive Value
  | int (n : Int64)
  | float (x : Binary64)
  | bool (b : Bool)
  | none
  deriving BEq, Repr

namespace Value

def kind : Value → Kind
  | int _ => .int
  | float _ => .float
  | bool _ => .bool
  | none => .none

def text : Value → String
  | int n => toString n
  | float x => x.text
  | bool true => "true"
  | bool false => "false"
  | none => "None"

inductive Pair
  | ints (a b : Int64)
  | floats (a b : Binary64)
  deriving Repr

/-- Brings two numeric values to one kind: an integer beside a float becomes a float. -/
def promote? : Value → Value → Option Pair
  | int a, int b => some (.ints a b)
  | int a, float b => some (.floats (Binary64.ofInt a.toInt) b)
  | float a, int b => some (.floats a (Binary64.ofInt b.toInt))
  | float a, float b => some (.floats a b)
  | _, _ => Option.none

end Value

end Frontend
