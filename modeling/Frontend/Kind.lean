namespace Frontend

inductive Kind
  | int
  | float
  | bool
  | none
  deriving DecidableEq, Repr

namespace Kind

def all : List Kind := [.int, .float, .bool, .none]

def index (k : Kind) : Nat := k.ctorIdx

instance : Ord Kind := ⟨fun a b => compare a.index b.index⟩

def name : Kind → String
  | int => "Int"
  | float => "Float"
  | bool => "Bool"
  | none => "None"

def ofName? (s : String) : Option Kind := all.find? fun k => k.name = s

end Kind

end Frontend
