import Frontend.Command.Run

namespace Frontend.Command

/-- The number of a system error, which some calls give negated. -/
def errorNumber (code : UInt32) : UInt32 := min code (0 - code)

def faultOf : IO.Error → ReadFault
  | .noFileOrDirectory _ _ _ => .missing
  | .inappropriateType _ code reason =>
    if errorNumber code = 21 then .isDirectory
    else if errorNumber code = 20 then .notDirectory
    else .other reason
  | e => .other (toString e)

def readFile (file : String) : IO (Except ReadFault String) := do
  try
    return decode (← IO.FS.readBinFile file)
  catch e =>
    return .error (faultOf e)

end Frontend.Command

open Frontend.Command in
def main (args : List String) : IO UInt32 := do
  let contents ← match parse? false args with
    | some (.run i) => readFile i.file
    | _ => pure (.error .missing)
  let outcome := run args fun _ => contents
  (← IO.getStdout).putStr outcome.stdout
  (← IO.getStderr).putStr outcome.stderr
  return UInt32.ofNat outcome.exit
