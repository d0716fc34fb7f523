import Frontend.Diagnostic.Basic

namespace Frontend

/-- The diagnostics of one analysis, in the order in which they arose, with a flag that is raised
once one of them is an error. -/
structure Sink where
  diagnostics : List Diagnostic := []
  hasErrors : Bool := false
  hasErrors_eq : hasErrors = diagnostics.any (·.level.isError) := by rfl
  deriving DecidableEq, Repr

namespace Sink

def add (s : Sink) (d : Diagnostic) : Sink where
  diagnostics := s.diagnostics ++ [d]
  hasErrors := s.hasErrors || d.level.isError
  hasErrors_eq := by simp [s.hasErrors_eq]

def addAll (s : Sink) (ds : List Diagnostic) : Sink := ds.foldl add s

def count (s : Sink) (level : Level) : Nat := s.diagnostics.countP (·.level = level)

def errorCount (s : Sink) : Nat := s.count .error

def warningCount (s : Sink) : Nat := s.count .warning

def size (s : Sink) : Nat := s.diagnostics.length

def isEmpty (s : Sink) : Bool := s.diagnostics.isEmpty

theorem diagnostics_addAll (s : Sink) (ds : List Diagnostic) :
    (s.addAll ds).diagnostics = s.diagnostics ++ ds := by
  induction ds generalizing s with
  | nil => simp [addAll]
  | cons d ds ih =>
    change ((s.add d).addAll ds).diagnostics = _
    rw [ih, add, List.append_assoc, List.singleton_append]

theorem size_eq (s : Sink) : s.size = s.errorCount + s.warningCount := by
  rw [size, errorCount, warningCount, count, count,
    List.length_eq_countP_add_countP fun d : Diagnostic => decide (d.level = .error)]
  congr 2
  funext d
  cases d.level <;> rfl

theorem hasErrors_iff (s : Sink) : s.hasErrors ↔ 0 < s.errorCount := by
  rw [hasErrors_eq, errorCount, count, List.countP_pos_iff, List.any_eq_true]
  simp only [Level.isError_iff, decide_eq_true_eq]

end Sink

end Frontend
