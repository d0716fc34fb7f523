import Frontend.Expr

namespace Frontend

structure Method where
  name : String
  call : List Value → Logged TypeError (List Value)

namespace Method

def text (m : Method) : String := "Method \x7b name: " ++ Text.quoteString m.name ++ ", .. \x7d"

def reverse (name : String) : Method := ⟨name, fun vs => return vs.reverse⟩

/-- The sum of a list from the left; an empty list has none. -/
def sum (name : String) : Method :=
  ⟨name, fun vs =>
    match vs with
    | [] => return []
    | v :: rest => do
      let total ← (rest.foldl (fun e w => Expr.binary .plus e (.literal w)) (.literal v)).evaluate
      return [total]⟩

end Method

structure Trait where
  name : String
  deriving DecidableEq, Repr

namespace Kind

def traits (_ : Kind) : List Trait := []

/-- No kind has a method yet. -/
def methods (_ : Kind) : List Method := []

def hasTrait (k : Kind) (t : Trait) : Bool := t ∈ k.traits

def hasMethod (k : Kind) (name : String) : Bool := k.methods.any (·.name = name)

def method (k : Kind) (name : String) : Except TypeError Method :=
  match k.methods.find? (·.name = name) with
  | some m => .ok m
  | Option.none => .error (.methodNotDefined k name)

end Kind

end Frontend
