import Frontend.Command.Arguments
import Frontend.Command.Directory
import Frontend.Diagnostic.Terminal
import Frontend.Token.Stream

namespace Frontend.Command

structure Outcome where
  exit : Nat
  stdout : String := ""
  stderr : String := ""
  deriving DecidableEq, Repr

def versionText : String := "oxylc 0.1.0\n"

def usage : String := "Usage: oxylc [--no-color] <lex|check> <INPUT>\n"

/-- One line a token: its position, a tab, its text. -/
def listing (s : TokenStream) : String :=
  String.join (s.tokens.map fun t => t.position.text ++ "\t" ++ t.token.text ++ "\n")

def reportAll (t : Terminal) (source : String) (ds : List Diagnostic) : Except LabelFault String :=
  (ds.mapM (t.report source)).map String.join

def lex (t : Terminal) (source : String) : Except LabelFault Outcome := do
  match tokenize source.toList with
  | .ok stream =>
    let shown ← reportAll t source stream.sink.diagnostics
    return ⟨if stream.hadError then 1 else 0, listing stream, shown⟩
  | .error e =>
    let shown ← t.report source e.diagnostic
    return ⟨1, "", shown⟩

def check (t : Terminal) (file source : String) : Except LabelFault Outcome := do
  match tokenize source.toList with
  | .ok stream =>
    let shown ← reportAll t source stream.sink.diagnostics
    if stream.sink.isEmpty then
      return ⟨0, "✅ " ++ file ++ ": " ++ toString stream.size ++ " tokens, no diagnostics\n", shown⟩
    let counts := file ++ ": " ++ toString stream.sink.errorCount ++ " error(s), " ++
      toString stream.sink.warningCount ++ " warning(s)\n"
    if stream.hadError then return ⟨1, "", shown ++ "❌ " ++ counts⟩
    return ⟨0, "⚠️  " ++ counts, shown⟩
  | .error e =>
    let shown ← t.report source e.diagnostic
    return ⟨1, "", shown ++ "❌ " ++ file ++ ": lexing aborted\n"⟩

def Invocation.outcome (i : Invocation) (contents : Except ReadFault String) : Outcome :=
  match contents with
  | .error fault =>
    ⟨1, "", "Error: failed to read '" ++ i.file ++ "'\n\nCaused by:\n    " ++ fault.message ++ "\n"⟩
  | .ok source =>
    let t : Terminal := { colors := i.colors }
    let result := match i.action with
      | .lex => lex t source
      | .check => check t i.file source
    match result with
    | .ok outcome => outcome
    | .error fault => ⟨101, "", fault.message ++ "\n"⟩

/-- The outcome of a command line, where `read` yields the text of a file. -/
def run (args : List String) (read : String → Except ReadFault String) : Outcome :=
  match parse? false args with
  | none => ⟨2, "", usage⟩
  | some .version => ⟨0, versionText, ""⟩
  | some (.run i) => i.outcome (read i.file)

end Frontend.Command
