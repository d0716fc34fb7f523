namespace Frontend

inductive Operator
  | dash | plus | slash | star | caret | percent | amp | pipe | greater | less | bang | equal
  | bangEqual | equalEqual | greaterEqual | lessEqual | and | or
  deriving DecidableEq, Repr

namespace Operator

def all : List Operator :=
  [.dash, .plus, .slash, .star, .caret, .percent, .amp, .pipe, .greater, .less, .bang, .equal,
   .bangEqual, .equalEqual, .greaterEqual, .lessEqual, .and, .or]

def index (op : Operator) : Nat := op.ctorIdx

instance : Ord Operator := ⟨fun a b => compare a.index b.index⟩

def symbol : Operator → String
  | dash => "-"
  | plus => "+"
  | slash => "/"
  | star => "*"
  | caret => "^"
  | percent => "%"
  | amp => "&"
  | pipe => "|"
  | greater => ">"
  | less => "<"
  | bang => "!"
  | equal => "="
  | bangEqual => "!="
  | equalEqual => "=="
  | greaterEqual => ">="
  | lessEqual => "<="
  | and => "&&"
  | or => "||"

def name : Operator → String
  | dash => "Dash"
  | plus => "Plus"
  | slash => "Slash"
  | star => "Star"
  | caret => "Caret"
  | percent => "Percent"
  | amp => "Amp"
  | pipe => "Pipe"
  | greater => "Greater"
  | less => "Less"
  | bang => "Bang"
  | equal => "Equal"
  | bangEqual => "BangEqual"
  | equalEqual => "EqualEqual"
  | greaterEqual => "GreaterEqual"
  | lessEqual => "LessEqual"
  | and => "And"
  | or => "Or"

def ofSymbol? (s : String) : Option Operator := all.find? fun op => op.symbol = s

/-- How tightly an operator binds; zero for the operators outside the tiers. -/
def precedence : Operator → Nat
  | star | slash | percent => 5
  | plus | dash => 4
  | equalEqual | bangEqual | greater | greaterEqual | less | lessEqual => 3
  | and => 2
  | or => 1
  | caret | amp | pipe | bang | equal => 0

def isBinary (op : Operator) : Bool := op != .bang && op != .equal

theorem mem_all (op : Operator) : op ∈ all := by
  cases op <;> decide

theorem ofSymbol?_symbol (op : Operator) : ofSymbol? op.symbol = some op := by
  cases op <;> decide

theorem ofSymbol?_eq_some_iff {s : String} {op : Operator} :
    ofSymbol? s = some op ↔ op.symbol = s := by
  constructor
  · intro h
    simpa using List.find?_some h
  · rintro rfl
    exact ofSymbol?_symbol op

theorem ofSymbol?_ofList_eq_some_iff {cs : List Char} {op : Operator} :
    ofSymbol? (String.ofList cs) = some op ↔ op.symbol.toList = cs := by
  rw [ofSymbol?_eq_some_iff, ← String.toList_inj, String.toList_ofList]

theorem eq_of_toList_symbol {op op' : Operator} (h : op.symbol.toList = op'.symbol.toList) :
    op = op' := by
  have hs := ofSymbol?_symbol op
  rw [String.toList_injective h, ofSymbol?_symbol] at hs
  exact (Option.some.inj hs).symm

end Operator

end Frontend
