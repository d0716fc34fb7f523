import Frontend.Token.Pattern

namespace Frontend

/-- A stretch of source text that the tokenizer takes at once. -/
inductive Lexeme
  | blanks (text : List Char)
  | lineFeed
  | carriageReturn (paired : Bool)
  | punctuation (p : Punctuation)
  | operator (op : Operator)
  | keyword (k : Keyword)
  | word (letters : List Char)
  | integer (digits : List Char)
  | decimal (whole fraction : List Char)
  | unknown (c : Char)
  deriving DecidableEq, Repr

namespace Lexeme

def chars : Lexeme → List Char
  | blanks text => text
  | lineFeed => ['\n']
  | carriageReturn _ => ['\r']
  | punctuation p => [p.char]
  | operator op => op.symbol.toList
  | keyword k => k.text.toList
  | word letters => letters
  | integer digits => digits
  | decimal whole fraction => whole ++ '.' :: fraction
  | unknown c => [c]

def isBlank (c : Char) : Bool := c = ' ' || c = '\t'

/-- The operator at the start of a text: one of two characters before one of a single one. -/
def operatorAt? (c : Char) (rest : List Char) : Option Operator :=
  (rest.head?.bind fun d => Operator.patterns.lookup (String.ofList [c, d])) <|>
    Operator.patterns.lookup (String.ofList [c])

theorem operatorAt?_eq (c : Char) (rest : List Char) :
    operatorAt? c rest =
      (rest.head?.bind fun d => Operator.ofSymbol? (String.ofList [c, d])).or
        (Operator.ofSymbol? (String.ofList [c])) := by
  simp only [operatorAt?, Operator.lookup_patterns, Option.orElse_eq_orElse, Option.orElse_eq_or]

/-- A keyword is one only in front of a blank; elsewhere it is a word like any other. -/
def keyword? (letters after : List Char) : Option Keyword :=
  match after with
  | d :: _ => if isBlank d then Keyword.patterns.lookup (String.ofList letters) else none
  | [] => none

def wordAt (c : Char) (rest : List Char) : Lexeme :=
  match keyword? (c :: rest.takeWhile Char.isAlpha) (rest.dropWhile Char.isAlpha) with
  | some k => keyword k
  | none => word (c :: rest.takeWhile Char.isAlpha)

def numberAt (c : Char) (rest : List Char) : Lexeme :=
  match rest.dropWhile Char.isDigit with
  | '.' :: after => decimal (c :: rest.takeWhile Char.isDigit) (after.takeWhile Char.isDigit)
  | _ => integer (c :: rest.takeWhile Char.isDigit)

def start (c : Char) (rest : List Char) : Lexeme :=
  if isBlank c then blanks (c :: rest.takeWhile isBlank)
  else if c = '\n' then lineFeed
  else if c = '\r' then carriageReturn (rest.head? = some '\n')
  else match Punctuation.ofPattern? c, operatorAt? c rest with
    | some p, _ => punctuation p
    | none, some op => operator op
    | none, none =>
      if c.isAlpha then wordAt c rest
      else if c.isDigit then numberAt c rest
      else unknown c

/-- The lexemes of a text, after `skip` characters that belong to an earlier one. -/
def scan : Nat → List Char → List Lexeme
  | _, [] => []
  | 0, c :: rest => start c rest :: scan ((start c rest).chars.length - 1) rest
  | skip + 1, _ :: rest => scan skip rest

def ofText (cs : List Char) : List Lexeme := scan 0 cs

theorem scan_eq_ofText_drop (skip : Nat) (cs : List Char) :
    scan skip cs = ofText (cs.drop skip) := by
  induction cs generalizing skip with
  | nil => cases skip <;> simp [ofText, scan]
  | cons c rest ih =>
    cases skip with
    | zero => rfl
    | succ skip => simpa [scan] using ih skip

theorem ofText_nil : ofText [] = [] := rfl

theorem ofText_cons (c : Char) (rest : List Char) :
    ofText (c :: rest) =
      start c rest :: ofText (rest.drop ((start c rest).chars.length - 1)) := by
  rw [ofText, scan, scan_eq_ofText_drop]

end Lexeme

end Frontend
