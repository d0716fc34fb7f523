import Frontend.Diagnostic.Basic
import Frontend.Source.Line
import Frontend.Source.Position
import Frontend.Text.Styled
import Frontend.Text.Unicode

namespace Frontend

/-- A stretch of a source in character offsets, as a snippet points it out. -/
structure Label where
  start : Nat
  stop : Nat
  deriving DecidableEq, Repr

def Span.label (s : Span) (source : List Char) : Label :=
  ⟨Text.charOffset source s.start, Text.charOffset source s.stop⟩

inductive LabelFault
  | reversed
  deriving DecidableEq, Repr

def LabelFault.message : LabelFault → String
  | reversed => "Label start is after its end"

namespace Label

def contains (l : Label) (o : Nat) : Bool := l.start ≤ o && o < l.stop

/-- Whether the label lies on a source of `n` characters, the place after the last one included. -/
def fits (l : Label) (n : Nat) : Bool := l.start ≤ n && (l.stop ≤ l.start || l.stop - 1 ≤ n)

end Label

namespace Snippet

open Text (Piece Style plain styled)

def marginStyle : Style := "38;5;246"

def gutterStyle : Style := "38;5;240"

def sourceStyle : Style := "38;5;249"

def remarkStyle : Style := "38;5;115"

def labelStyle : Level → Style
  | .error => "31"
  | .warning => "33"

def title : Level → String
  | .error => "Error:"
  | .warning => "Warning:"

def spaces (n : Nat) : String := String.ofList (List.replicate n ' ')

/-- Columns of the `i`th character of a line; places past its end count as one. -/
def cellWidth (row : List Char) (i : Nat) : Nat :=
  match row[i]? with
  | none => 1
  | some c => if c = '\t' then 4 - i % 4 else if Text.isWhiteSpace c then 1 else Text.columns c

def sourceCells (style : Style) (label : Label) (start : Nat) (row : List Char) : List Piece :=
  row.zipIdx.flatMap fun (c, i) =>
    let ink := if label.contains (start + i) then style else sourceStyle
    if Text.isWhiteSpace c then List.replicate (cellWidth row i) (styled ink " ")
    else [styled ink c.toString]

def cell (head tail : Piece) (width : Nat) : List Piece :=
  (head :: List.replicate (width - 1) tail).take width

/-- The line below the source: the label underlined, with a branch in its middle. -/
def underline (style : Style) (label : Label) (start : Nat) (row : List Char) : List Piece :=
  (List.range (label.stop - start + 2)).flatMap fun i =>
    let bar := styled style "─"
    let (head, tail) :=
      if i = (label.start + label.stop) / 2 - start then
        if label.contains (start + i) then (styled style "┬", bar)
        else (styled style "│", styled style " ")
      else if label.contains (start + i) then (bar, bar)
      else (plain " ", plain " ")
    cell head tail (cellWidth row i)

def arm (style : Style) (label : Label) (start : Nat) (row : List Char) : List Piece :=
  (List.range (label.stop - start + 2)).flatMap fun i =>
    let bar := styled style "─"
    let middle := (label.start + label.stop) / 2 - start
    let (head, tail) :=
      if i < middle then (plain " ", plain " ")
      else if i = middle then (styled style "╰", bar)
      else (bar, bar)
    cell head tail (cellWidth row i)

def gutter (width : Nat) : List Piece :=
  [plain " ", styled gutterStyle (spaces (width + 1) ++ "│"), plain " "]

def remark (width : Nat) (name text : String) : List Piece :=
  gutter width ++ [plain "\n"] ++ gutter width ++
    [styled remarkStyle name, plain (": " ++ text ++ "\n")]

def body (d : Diagnostic) (label : Label) (line : Line) : List Piece :=
  let number := toString line.number
  let width := number.length
  let style := labelStyle d.level
  let visible := Text.trimEnd line.text
  let place := "<unknown>:" ++ number ++ ":" ++ toString (label.start - line.start + 1)
  [plain (spaces (width + 2)), styled marginStyle "╭", styled marginStyle "─",
    styled marginStyle "[", plain place, styled marginStyle "]", plain "\n",
    plain (spaces (width + 2)), styled marginStyle "│", plain "\n",
    plain " ", styled marginStyle (number ++ " │"), plain " "] ++
  sourceCells style label line.start visible ++ [plain "\n"] ++
  gutter width ++ underline style label line.start visible ++ [plain "\n"] ++
  gutter width ++ arm style label line.start visible ++ [plain (" " ++ d.message ++ "\n")] ++
  d.help.toList.flatMap (remark width "Help") ++
  (if d.notes.isEmpty then [] else remark width "Note" ("\n".intercalate d.notes)) ++
  [styled marginStyle (String.ofList (List.replicate (width + 2) '─') ++ "╯"), plain "\n"]

/-- The diagnostic with the source line that `span` starts on. Only the title is left when the
source has no such line. A label over several lines, which nothing that is found wrong with a
source has, is drawn as far as the end of its first line. -/
def layout (d : Diagnostic) (span : Span) (source : List Char) : Except LabelFault (List Piece) :=
  let label := span.label source
  if label.stop < label.start then .error .reversed
  else
    let head := [styled (labelStyle d.level) (title d.level), plain (" " ++ d.message ++ "\n")]
    match lineAt? source label.start with
    | some line => .ok (if label.fits source.length then head ++ body d label line else head)
    | none => .ok head

end Snippet

end Frontend
