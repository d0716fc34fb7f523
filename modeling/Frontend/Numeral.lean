namespace Frontend.Numeral

inductive IntegerFault
  | empty
  | invalidDigit
  | tooLarge
  | tooSmall
  deriving DecidableEq, Repr

def IntegerFault.message : IntegerFault → String
  | .empty => "cannot parse integer from empty string"
  | .invalidDigit => "invalid digit found in string"
  | .tooLarge => "number too large to fit in target type"
  | .tooSmall => "number too small to fit in target type"

/-- Reads digits onto `n` while the number stays within `limit`; going past it is `fault`. -/
def readDigits (limit : Nat) (fault : IntegerFault) (n : Nat) : List Char → Except IntegerFault Nat
  | [] => .ok n
  | c :: cs =>
    if c.isDigit then
      let m := 10 * n + (c.toNat - '0'.toNat)
      if m ≤ limit then readDigits limit fault m cs else .error fault
    else .error .invalidDigit

def maxInt : Nat := Nat.pow 2 63 - 1

def readInteger : List Char → Except IntegerFault Int64
  | [] => .error .empty
  | ['+'] | ['-'] => .error .invalidDigit
  | '+' :: cs => (readDigits maxInt .tooLarge 0 cs).map fun n => Int64.ofInt n
  | '-' :: cs => (readDigits (maxInt + 1) .tooSmall 0 cs).map fun n => Int64.ofInt (-n)
  | cs => (readDigits maxInt .tooLarge 0 cs).map fun n => Int64.ofInt n

inductive DecimalFault
  | empty
  | invalid
  deriving DecidableEq, Repr

def DecimalFault.message : DecimalFault → String
  | .empty => "cannot parse float from empty string"
  | .invalid => "invalid float literal"

def isExponent : List Char → Bool
  | [] => false
  | e :: cs =>
    let digits := match cs with
      | '+' :: ds => ds
      | '-' :: ds => ds
      | ds => ds
    e.toLower == 'e' && !digits.isEmpty && digits.all Char.isDigit

/-- Digits with an optional point among them, at least one digit, then an optional exponent. -/
def isUnsignedDecimal (cs : List Char) : Bool :=
  let whole := cs.takeWhile Char.isDigit
  let rest := cs.dropWhile Char.isDigit
  let (fraction, rest) := match rest with
    | '.' :: ds => (ds.takeWhile Char.isDigit, ds.dropWhile Char.isDigit)
    | ds => ([], ds)
  !(whole ++ fraction).isEmpty && (rest.isEmpty || isExponent rest)

/-- The spellings of the values that no digits denote, in any case. -/
def isNamedValue (cs : List Char) : Bool :=
  String.ofList (cs.map Char.toLower) ∈ ["inf", "infinity", "nan"]

def decimalFault? (cs : List Char) : Option DecimalFault :=
  if cs.isEmpty then some .empty
  else
    let body := match cs with
      | '+' :: ds => ds
      | '-' :: ds => ds
      | ds => ds
    if isNamedValue body || isUnsignedDecimal body then none else some .invalid

end Frontend.Numeral
