namespace Frontend.Command

inductive Action
  | lex
  | check
  deriving DecidableEq, Repr

structure Invocation where
  action : Action
  file : String
  colors : Bool
  deriving DecidableEq, Repr

inductive Request
  | version
  | run (i : Invocation)
  deriving DecidableEq, Repr

def Action.ofName? (s : String) : Option Action :=
  if s = "lex" then some .lex else if s = "check" then some .check else none

def noColor : String := "--no-color"

/-- An argument that begins an option. A dash alone names a file. -/
def isOption (a : String) : Bool :=
  match a.toList with
  | '-' :: _ :: _ => true
  | _ => false

def parseFile? (plain : Bool) (file : Option String) : List String → Option (Bool × String)
  | [] => file.map (plain, ·)
  | a :: rest =>
    if a = "--" then
      match file, rest with
      | some f, [] => some (plain, f)
      | none, [f] => some (plain, f)
      | _, _ => none
    else if a = noColor then
      if plain then none else parseFile? true file rest
    else if isOption a then none
    else match file with
      | some _ => none
      | none => parseFile? plain (some a) rest

def isVersion (a : String) : Bool :=
  a = "--version" ||
  match a.toList with
  | '-' :: 'V' :: _ => true
  | _ => false

/-- The request of a command line, `none` if it is not understood. Colours may be turned off once
before the action and once after it. -/
def parse? (plain : Bool) : List String → Option Request
  | [] => none
  | a :: rest =>
    if a = noColor then
      if plain then none else parse? true rest
    else if isVersion a then some .version
    else do
      let action ← Action.ofName? a
      let (plainToo, file) ← parseFile? false none rest
      return .run ⟨action, file, !(plain || plainToo)⟩

end Frontend.Command
