import Frontend.TypeError
import Frontend.Value

namespace Frontend

abbrev Operation := Value → Value → Except TypeError Value

namespace Operation

/-- Numbers of either kind. Only integers have no result in some cases, for a divisor of zero. -/
def arithmetic (op : Operator) (onInts : Int64 → Int64 → Option Int64)
    (onFloats : Binary64 → Binary64 → Binary64) : Operation := fun left right =>
  match left.promote? right with
  | some (.ints a b) =>
    match onInts a b with
    | some n => .ok (.int n)
    | none => .error (.divisionByZero op .int)
  | some (.floats a b) => .ok (.float (onFloats a b))
  | none => .error (.mismatch op left.kind right.kind)

def comparison (op : Operator) (holds : Option Ordering → Bool) : Operation := fun left right =>
  match left.promote? right with
  | some (.ints a b) => .ok (.bool (holds (some (compare a.toInt b.toInt))))
  | some (.floats a b) => .ok (.bool (holds (a.order? b)))
  | none => .error (.mismatch op left.kind right.kind)

def bitwise (op : Operator) (f : Int64 → Int64 → Int64) : Operation
  | .int a, .int b => .ok (.int (f a b))
  | left, right => .error (.mismatch op left.kind right.kind)

def logical (op : Operator) (f : Bool → Bool → Bool) : Operation
  | .bool a, .bool b => .ok (.bool (f a b))
  | left, right => .error (.mismatch op left.kind right.kind)

/-- Integer arithmetic wraps around at 64 bits, and division truncates toward zero. -/
def arithmetic? (op : Operator) : Option Operation :=
  match op with
  | .plus => some (arithmetic op (fun a b => some (a + b)) (· + ·))
  | .dash => some (arithmetic op (fun a b => some (a - b)) (· - ·))
  | .star => some (arithmetic op (fun a b => some (a * b)) (· * ·))
  | .slash => some (arithmetic op (fun a b => if b = 0 then none else some (a / b)) (· / ·))
  | .percent => some (arithmetic op (fun a b => if b = 0 then none else some (a % b)) (· % ·))
  | _ => none

/-- Two numbers in no order are only unequal. -/
def comparison? (op : Operator) : Option Operation :=
  match op with
  | .less => some (comparison op (· == some .lt))
  | .lessEqual => some (comparison op fun o => o == some .lt || o == some .eq)
  | .greater => some (comparison op (· == some .gt))
  | .greaterEqual => some (comparison op fun o => o == some .gt || o == some .eq)
  | .equalEqual => some (comparison op (· == some .eq))
  | .bangEqual => some (comparison op (· != some .eq))
  | _ => none

def bitwise? (op : Operator) : Option Operation :=
  match op with
  | .amp => some (bitwise op (· &&& ·))
  | .pipe => some (bitwise op (· ||| ·))
  | .caret => some (bitwise op (· ^^^ ·))
  | _ => none

def logical? (op : Operator) : Option Operation :=
  match op with
  | .and => some (logical op (· && ·))
  | .or => some (logical op (· || ·))
  | .equalEqual => some (logical op (· == ·))
  | .bangEqual => some (logical op (· != ·))
  | _ => none

end Operation

end Frontend
