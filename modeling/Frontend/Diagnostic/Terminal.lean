import Frontend.Diagnostic.Snippet

namespace Frontend

namespace Diagnostic

open Text (Piece Style plain styled)

def renderPlain (d : Diagnostic) : String :=
  d.level.name ++ ": " ++ d.message ++ "\n" ++
    (d.location?.elim "" fun location => "  --> " ++ location ++ "\n") ++
    String.join (d.notes.map fun note => "  = note: " ++ note ++ "\n") ++
    (d.help.elim "" fun help => "  = help: " ++ help ++ "\n")

def levelStyle : Level → Style
  | .error => "1;31"
  | .warning => "1;33"

def detail (mark text : Piece) : List Piece := [plain "  ", mark, plain " ", text, plain "\n"]

def coloredPieces (d : Diagnostic) : List Piece :=
  [styled (levelStyle d.level) d.level.name, plain ": ", styled "1" d.message, plain "\n"] ++
  d.location?.toList.flatMap (fun location => detail (styled "1;34" "-->") (plain location)) ++
  d.notes.flatMap (fun note => detail (styled "1;34" "=") (styled "90" ("note: " ++ note))) ++
  d.help.toList.flatMap (fun help => detail (styled "1;32" "=") (styled "32" ("help: " ++ help)))

def renderColored (ansi : Bool) (d : Diagnostic) : String := Text.draw ansi d.coloredPieces

end Diagnostic

/-- How diagnostics are shown: whether colours are wanted, and whether the terminal takes styles. -/
structure Terminal where
  colors : Bool := true
  ansi : Bool := true
  deriving DecidableEq, Repr

namespace Terminal

def render (t : Terminal) (d : Diagnostic) : String :=
  if t.colors then d.renderColored t.ansi else d.renderPlain

/-- The diagnostic beside its source. One without a span is rendered alone, and only then does it
matter whether the terminal takes styles. -/
def report (t : Terminal) (source : String) (d : Diagnostic) : Except LabelFault String :=
  match d.span with
  | some span => (Snippet.layout d span source.toList).map (Text.draw t.colors)
  | none => .ok (t.render d)

end Terminal

end Frontend
