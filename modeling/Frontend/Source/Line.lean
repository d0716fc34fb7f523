namespace Frontend

def isTerminator (c : Char) : Bool :=
  c ∈ ['\n', '\x0b', '\x0c', '\r', '\u0085', '\u2028', '\u2029']

/-- The lines of a source with their terminators. No line follows a terminator at the end. -/
def splitLines : List Char → List (List Char)
  | [] => []
  | '\r' :: '\n' :: cs => ['\r', '\n'] :: splitLines cs
  | c :: cs =>
    if isTerminator c then [c] :: splitLines cs
    else match splitLines cs with
      | [] => [[c]]
      | l :: ls => (c :: l) :: ls

structure Line where
  number : Nat
  start : Nat
  text : List Char
  deriving DecidableEq, Repr

/-- The last line that starts at or before the character offset `o`, when the first of `ls` has
this number and this start. -/
def lineFrom? (number start o : Nat) : List (List Char) → Option Line
  | [] => none
  | [l] => some ⟨number, start, l⟩
  | l :: ls =>
    if o < start + l.length then some ⟨number, start, l⟩
    else lineFrom? (number + 1) (start + l.length) o ls

def lineAt? (source : List Char) (o : Nat) : Option Line := lineFrom? 1 0 o (splitLines source)

end Frontend
