namespace Frontend.Text

/-- The codes of a terminal style, as they stand between `ESC[` and `m`. -/
abbrev Style := String

structure Piece where
  style : Option Style := none
  text : String
  deriving DecidableEq, Repr

def plain (text : String) : Piece := { text }

def styled (style : Style) (text : String) : Piece := { style := some style, text }

def opening (style : Style) : List Char := '\x1b' :: '[' :: style.toList ++ ['m']

def closing : List Char := ['\x1b', '[', '0', 'm']

/-- Repeats `again` after each `closing` within a text, where the style would be lost. -/
def reopen (again : List Char) : List Char → List Char
  | '\x1b' :: '[' :: '0' :: 'm' :: cs => closing ++ again ++ reopen again cs
  | c :: cs => c :: reopen again cs
  | [] => []

namespace Piece

def ansi (p : Piece) : String :=
  match p.style with
  | none => p.text
  | some style =>
    String.ofList (opening style ++ reopen (opening style) p.text.toList ++ closing)

end Piece

def draw (ansi : Bool) (pieces : List Piece) : String :=
  String.join (pieces.map fun p => if ansi then p.ansi else p.text)

end Frontend.Text
