import Frontend.Source.Position

namespace Frontend

inductive Level
  | error
  | warning
  deriving DecidableEq, Repr

def Level.name : Level → String
  | error => "error"
  | warning => "warning"

def Level.isError : Level → Bool
  | error => true
  | warning => false

theorem Level.isError_iff {l : Level} : l.isError ↔ l = .error := by
  cases l <;> decide

/-- A message about a source, with where it applies and what may be done about it. -/
structure Diagnostic where
  level : Level
  message : String
  span : Option Span := none
  position : Option Position := none
  notes : List String := []
  help : Option String := none
  deriving DecidableEq, Repr

namespace Diagnostic

def error (message : String) : Diagnostic := { level := .error, message }

def warning (message : String) : Diagnostic := { level := .warning, message }

def withSpan (d : Diagnostic) (s : Span) : Diagnostic := { d with span := some s }

def withPosition (d : Diagnostic) (p : Position) : Diagnostic := { d with position := some p }

def withNote (d : Diagnostic) (note : String) : Diagnostic := { d with notes := d.notes ++ [note] }

def withHelp (d : Diagnostic) (help : String) : Diagnostic := { d with help := some help }

/-- Where a diagnostic applies: its position, else its span. -/
def location? (d : Diagnostic) : Option String :=
  match d.position, d.span with
  | some p, _ => some p.text
  | none, some s => some s.text
  | none, none => none

end Diagnostic

end Frontend
