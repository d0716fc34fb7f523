namespace Frontend

/-- A range of byte offsets. -/
structure Span where
  start : Nat
  stop : Nat
  deriving DecidableEq, Repr

structure Position where
  line : Nat
  column : Nat
  deriving DecidableEq, Repr

instance : Ord Position := ⟨fun p q => (compare p.line q.line).then (compare p.column q.column)⟩

def Position.text (p : Position) : String := toString p.line ++ ":" ++ toString p.column

def Span.text (s : Span) : String := toString s.start ++ ".." ++ toString s.stop

structure Cursor where
  offset : Nat
  position : Position
  deriving DecidableEq, Repr

namespace Cursor

def start : Cursor := ⟨0, ⟨1, 1⟩⟩

/-- Past one character: only a line feed ends a line, and a column is a character, not a byte. -/
def step (p : Cursor) (c : Char) : Cursor :=
  ⟨p.offset + c.utf8Size,
    if c = '\n' then ⟨p.position.line + 1, 1⟩ else ⟨p.position.line, p.position.column + 1⟩⟩

def advance (p : Cursor) (cs : List Char) : Cursor := cs.foldl step p

theorem advance_append (p : Cursor) (cs ds : List Char) :
    p.advance (cs ++ ds) = (p.advance cs).advance ds := by
  simp [advance]

end Cursor

namespace Text

def byteLength : List Char → Nat
  | [] => 0
  | c :: cs => c.utf8Size + byteLength cs

/-- The number of characters that end within the first `offset` bytes, `none` if the offset falls
inside a character. An offset past the end counts as the end. -/
def charsBefore? : List Char → Nat → Option Nat
  | [], _ => some 0
  | c :: cs, offset =>
    if offset = 0 then some 0
    else if offset < c.utf8Size then none
    else (charsBefore? cs (offset - c.utf8Size)).map (· + 1)

/-- Byte offset to character offset; an offset inside a character is kept as it is. -/
def charOffset (cs : List Char) (offset : Nat) : Nat := (charsBefore? cs offset).getD offset

theorem byteLength_append (cs ds : List Char) :
    byteLength (cs ++ ds) = byteLength cs + byteLength ds := by
  induction cs with
  | nil => simp [byteLength]
  | cons c cs ih => simp [byteLength, ih, Nat.add_assoc]

end Text

end Frontend
