namespace Frontend.Command

inductive ReadFault
  | missing
  | isDirectory
  | notDirectory
  | notUtf8
  | other (reason : String)
  deriving DecidableEq, Repr

def ReadFault.message : ReadFault → String
  | missing => "No such file or directory (os error 2)"
  | isDirectory => "Is a directory (os error 21)"
  | notDirectory => "Not a directory (os error 20)"
  | notUtf8 => "stream did not contain valid UTF-8"
  | other reason => reason

def decode (bytes : ByteArray) : Except ReadFault String :=
  match String.fromUTF8? bytes with
  | some s => .ok s
  | none => .error .notUtf8

/-- A working directory: its files by the names on the way to them. -/
structure Directory where
  files : List (List String × ByteArray)

/-- Where a path has led so far. Nothing is known outside the working directory. -/
inductive Place
  | within (path : List String)
  | file (bytes : ByteArray)
  | outside

namespace Directory

def hasFolder (d : Directory) (path : List String) : Bool :=
  d.files.any fun f => path.isPrefixOf f.1

def enter (d : Directory) : Place → String → Except ReadFault Place
  | .file _, _ => .error .notDirectory
  | .outside, name => if name ∈ ["", ".", ".."] then .ok .outside else .error .missing
  | .within path, name =>
    if name = "" || name = "." then .ok (.within path)
    else if name = ".." then .ok (if path.isEmpty then .outside else .within path.dropLast)
    else match d.files.lookup (path ++ [name]) with
      | some bytes => .ok (.file bytes)
      | none =>
        if d.hasFolder (path ++ [name]) then .ok (.within (path ++ [name])) else .error .missing

def readBytes (d : Directory) (path : String) : Except ReadFault ByteArray := do
  let names := path.splitOn "/"
  let root := if path.toList.head? = some '/' then Place.outside else .within []
  if path.isEmpty then throw .missing
  match ← names.foldlM d.enter root with
  | .file bytes => return bytes
  | _ => throw .isDirectory

def read (d : Directory) (path : String) : Except ReadFault String := d.readBytes path >>= decode

end Directory

end Frontend.Command
