import Frontend.Binary64.Text
import Frontend.Operator
import Frontend.Text.Escape

namespace Frontend

inductive Punctuation
  | leftParen | rightParen | leftBrace | rightBrace | leftBracket | rightBracket
  | comma | dot | colon | doubleQuote | singleQuote
  deriving DecidableEq, Repr

namespace Punctuation

def char : Punctuation → Char
  | leftParen => '('
  | rightParen => ')'
  | leftBrace => '\x7b'
  | rightBrace => '\x7d'
  | leftBracket => '['
  | rightBracket => ']'
  | comma => ','
  | dot => '.'
  | colon => ':'
  | doubleQuote => '"'
  | singleQuote => '\''

def ofChar? : Char → Option Punctuation
  | '(' => some leftParen
  | ')' => some rightParen
  | '\x7b' => some leftBrace
  | '\x7d' => some rightBrace
  | '[' => some leftBracket
  | ']' => some rightBracket
  | ',' => some comma
  | '.' => some dot
  | ':' => some colon
  | '"' => some doubleQuote
  | '\'' => some singleQuote
  | _ => none

theorem ofChar?_char (p : Punctuation) : ofChar? p.char = some p := by
  cases p <;> rfl

theorem ofChar?_eq_some_iff {c : Char} {p : Punctuation} : ofChar? c = some p ↔ p.char = c := by
  constructor
  · intro h
    unfold ofChar? at h
    split at h <;> cases h <;> rfl
  · rintro rfl
    exact ofChar?_char p

theorem char_injective {p q : Punctuation} (h : p.char = q.char) : p = q := by
  have hp := ofChar?_char p
  rw [h, ofChar?_char] at hp
  exact (Option.some.inj hp).symm

end Punctuation

inductive Keyword
  | letWord | funWord
  deriving DecidableEq, Repr

def Keyword.text : Keyword → String
  | letWord => "let"
  | funWord => "fun"

inductive Token
  | punctuation (p : Punctuation)
  | identifier (name : String)
  | int (n : Int64)
  | float (x : Binary64)
  | keyword (k : Keyword)
  | operator (op : Operator)
  | newline
  | unknown (c : Char)
  | eof
  deriving BEq, Repr

namespace Token

def text : Token → String
  | punctuation p => p.char.toString
  | identifier name => "Identifier: " ++ name
  | int n => "Int: " ++ toString n
  | float x => "Float: " ++ x.text
  | keyword k => k.text
  | operator op => op.symbol
  | newline => "Newline"
  | unknown c => "Unknown: " ++ Text.escape c
  | eof => "EOF"

def operator? : Token → Option Operator
  | operator op => some op
  | _ => none

def isEof : Token → Bool
  | eof => true
  | _ => false

end Token

end Frontend
