import Frontend.Diagnostic.Sink
import Frontend.Event
import Frontend.Numeral
import Frontend.Source.Position
import Frontend.Token.Lexeme

namespace Frontend

inductive LiteralFault
  | integer (fault : Numeral.IntegerFault)
  | decimal (fault : Numeral.DecimalFault)
  deriving DecidableEq, Repr

/-- A numeral without a value, which ends the scan of its source. -/
structure LexError where
  literal : String
  span : Span
  position : Position
  fault : LiteralFault
  deriving DecidableEq, Repr

namespace LexError

def message (e : LexError) : String :=
  let place := " literal '" ++ e.literal ++ "' at " ++ e.position.text ++ " cannot be represented: "
  match e.fault with
  | .integer fault => "integer" ++ place ++ fault.message
  | .decimal fault => "float" ++ place ++ fault.message

def diagnostic (e : LexError) : Diagnostic :=
  let d := ((Diagnostic.error e.message).withSpan e.span).withPosition e.position
  match e.fault with
  | .integer _ => d.withNote "integer literals must fit in a 64-bit signed integer"
  | .decimal _ => d

end LexError

structure SpannedToken where
  token : Token
  span : Span
  position : Position
  deriving BEq, Repr

/-- The tokens of a source, the last of them `eof`, and what was found wrong with it. -/
structure TokenStream where
  tokens : List SpannedToken
  sink : Sink
  deriving BEq, Repr

namespace TokenStream

def bare (s : TokenStream) : List Token := s.tokens.map SpannedToken.token

def hadError (s : TokenStream) : Bool := s.sink.hasErrors

def size (s : TokenStream) : Nat := s.tokens.length

end TokenStream

namespace Lexeme

def span (l : Lexeme) (p : Cursor) : Span := ⟨p.offset, p.offset + Text.byteLength l.chars⟩

def token? : Lexeme → Except Numeral.IntegerFault (Option Token)
  | blanks _ => .ok none
  | lineFeed | carriageReturn _ => .ok (some .newline)
  | punctuation p => .ok (some (.punctuation p))
  | operator op => .ok (some (.operator op))
  | keyword k => .ok (some (.keyword k))
  | word letters => .ok (some (.identifier (String.ofList letters)))
  | integer digits => (Numeral.readInteger digits).map fun n => some (.int n)
  | decimal whole fraction =>
    .ok (some (.float
      (Binary64.ofDecimal (Nat.ofDigitChars 10 (whole ++ fraction) 0) fraction.length)))
  | unknown c => .ok (some (.unknown c))

def diagnostic? (l : Lexeme) (p : Cursor) : Option Diagnostic :=
  let place (d : Diagnostic) := (d.withSpan (l.span p)).withPosition p.position
  match l with
  | carriageReturn false =>
    some ((place (.warning "carriage return without line feed")).withNote
      "line numbers only advance on '\\n'")
  | unknown c => some (place (.error ("unrecognized character '" ++ Text.escape c ++ "'")))
  | _ => none

def event? (l : Lexeme) (p : Cursor) : Option Event :=
  match l with
  | unknown c => some (.unrecognized c p.position)
  | _ => none

def place (p : Cursor) : List Lexeme → List (Cursor × Lexeme)
  | [] => []
  | l :: ls => (p, l) :: place (p.advance l.chars) ls

def read (p : Cursor) (l : Lexeme) : Except LexError (Option SpannedToken) :=
  match l.token? with
  | .ok t => .ok (t.map fun t => ⟨t, l.span p, p.position⟩)
  | .error fault => .error ⟨String.ofList l.chars, l.span p, p.position, .integer fault⟩

/-- The tokens of lexemes at their places, up to the first that cannot be read. -/
def readAll : List (Cursor × Lexeme) → Except LexError (List SpannedToken)
  | [] => .ok []
  | (p, l) :: rest => do
    let token ← read p l
    let tokens ← readAll rest
    return token.toList ++ tokens

end Lexeme

def lexemesOf (source : List Char) : List (Cursor × Lexeme) :=
  Lexeme.place .start (Lexeme.ofText source)

/-- The tokens of a source with its diagnostics. A character that begins no token is kept as an
unknown one; only a numeral without a value is an error. -/
def tokenize (source : List Char) : Except LexError TokenStream := do
  let placed := lexemesOf source
  let tokens ← Lexeme.readAll placed
  let finish := Cursor.start.advance source
  let eof : SpannedToken := ⟨.eof, ⟨finish.offset, finish.offset⟩, finish.position⟩
  return ⟨tokens ++ [eof], Sink.addAll {} (placed.filterMap fun (p, l) => l.diagnostic? p)⟩

def tokenizeLogged (source : List Char) : Logged LexError TokenStream :=
  let outcome := tokenize source
  let reached := (lexemesOf source).takeWhile fun (p, l) => (Lexeme.read p l).isOk
  let finished := match outcome with
    | .ok stream =>
      [Event.tokenized stream.size stream.sink.size (Cursor.start.advance source).position.line]
    | .error _ => []
  ⟨[.tokenizing (Text.byteLength source)] ++ reached.filterMap (fun (p, l) => l.event? p) ++
    finished, outcome⟩

/-- Whether two sources have the same tokens at the same places with the same diagnostics, or fail
in the same way. -/
def sameStreams (a b : Except LexError TokenStream) : Bool :=
  match a, b with
  | .ok s, .ok t => s == t
  | .error e, .error f => e == f
  | _, _ => false

/-- Whether two sources have the same tokens, wherever they stand, or fail in the same way. -/
def sameTokens (a b : Except LexError TokenStream) : Bool :=
  match a, b with
  | .ok s, .ok t => s.bare == t.bare
  | .error e, .error f => e == f
  | _, _ => false

end Frontend
