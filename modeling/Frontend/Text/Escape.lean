import Frontend.Text.Unicode

namespace Frontend.Text

def isIllegible (c : Char) : Bool := graphemeExtend.contains c || unprintable.contains c

def escapeCode (c : Char) : List Char :=
  ['\\', 'u', '\x7b'] ++ Nat.toDigits 16 c.toNat ++ ['\x7d']

/-- The legible spelling of a character, when `quotes` are the quote marks to be escaped. -/
def escapeChar (quotes : List Char) (c : Char) : List Char :=
  if c = '\x00' then ['\\', '0']
  else if c = '\t' then ['\\', 't']
  else if c = '\r' then ['\\', 'r']
  else if c = '\n' then ['\\', 'n']
  else if c = '\\' then ['\\', '\\']
  else if c ∈ quotes then ['\\', c]
  else if isIllegible c then escapeCode c
  else [c]

/-- A character inside a message, where either quote mark may surround it. -/
def escape (c : Char) : String := String.ofList (escapeChar ['\'', '"'] c)

def quoteChar (c : Char) : String :=
  String.ofList ('\'' :: escapeChar ['\''] c ++ ['\''])

def quoteString (s : String) : String :=
  String.ofList ('"' :: s.toList.flatMap (escapeChar ['"']) ++ ['"'])

end Frontend.Text
