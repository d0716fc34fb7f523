import Frontend.Source.Position
import Frontend.Text.Escape
import Frontend.TypeError
import Frontend.Value

namespace Frontend

inductive Event
  | tokenizing (bytes : Nat)
  | unrecognized (c : Char) (position : Position)
  | tokenized (tokens diagnostics lines : Nat)
  | rejected (op : Operator) (left right : Kind)
  | evaluated (op : Operator) (left right result : Value)
  deriving Repr

namespace Event

def level : Event → String
  | tokenizing _ | tokenized _ _ _ => "DEBUG"
  | unrecognized _ _ | rejected _ _ _ | evaluated _ _ _ _ => "TRACE"

def target : Event → String
  | tokenizing _ | unrecognized _ _ | tokenized _ _ _ => "oxyl_syntax::lexer"
  | rejected _ _ _ => "oxyl_types::kind"
  | evaluated _ _ _ _ => "oxyl_types::expr"

def message : Event → String
  | tokenizing _ => "tokenize start"
  | unrecognized _ _ => "unrecognized character"
  | tokenized _ _ _ => "tokenize finished"
  | rejected _ _ _ => "operand kinds rejected"
  | evaluated _ _ _ _ => "evaluated binary expression"

def fields : Event → List (String × String)
  | tokenizing bytes => [("bytes", toString bytes)]
  | unrecognized c position => [("character", Text.quoteChar c), ("position", position.text)]
  | tokenized tokens diagnostics lines =>
    [("tokens", toString tokens), ("diagnostics", toString diagnostics), ("lines", toString lines)]
  | rejected op left right => [("op", op.symbol), ("left", left.name), ("right", right.name)]
  | evaluated op left right result =>
    [("op", op.symbol), ("left", left.text), ("right", right.text), ("result", result.text)]

end Event

/-- A computation that may fail, with the events it reports up to its end. -/
structure Logged (ε α : Type) where
  events : List Event
  outcome : Except ε α

namespace Logged

variable {ε α β : Type}

def ofExcept (x : Except ε α) : Logged ε α := ⟨[], x⟩

def report (e : Event) : Logged ε Unit := ⟨[e], .ok ()⟩

/-- Nothing is done and nothing reported after a failure. -/
def bind (x : Logged ε α) (f : α → Logged ε β) : Logged ε β :=
  match x.outcome with
  | .ok a => ⟨x.events ++ (f a).events, (f a).outcome⟩
  | .error e => ⟨x.events, .error e⟩

instance : Monad (Logged ε) where
  pure a := ⟨[], .ok a⟩
  bind := bind

theorem outcome_bind (x : Logged ε α) (f : α → Logged ε β) :
    (x >>= f).outcome = x.outcome >>= fun a => (f a).outcome := by
  change (bind x f).outcome = _
  unfold bind
  cases x.outcome <;> rfl

theorem bind_ok {x : Logged ε α} {a : α} (h : x.outcome = .ok a) (f : α → Logged ε β) :
    x >>= f = ⟨x.events ++ (f a).events, (f a).outcome⟩ := by
  change bind x f = _
  simp [bind, h]

theorem bind_error {x : Logged ε α} {e : ε} (h : x.outcome = .error e) (f : α → Logged ε β) :
    x >>= f = ⟨x.events, .error e⟩ := by
  change bind x f = _
  simp [bind, h]

end Logged

end Frontend
