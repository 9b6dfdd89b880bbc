import NovelScript.Command.Run

/-!
# The program

Reads the files that a command line may need, answers it and prints the answer.
-/

namespace NovelScript

def failureOf : IO.Error → ReadFailure
  | .inappropriateType _ code _ => if code = 20 then .belowFile else .directory
  | .invalidArgument _ 36 _ => .nameTooLong
  | _ => .absent

def readText (path : String) : IO (Except ReadFailure String) := do
  try
    let bytes ← IO.FS.readBinFile path
    return decodeText bytes
  catch error => return .error (failureOf error)

/-- The view of the given paths; nothing else is there. -/
def viewOf (paths : List String) : IO Files := do
  let texts ← paths.mapM fun path => do return (path, ← readText path)
  return fun path => (texts.lookup path).getD (.error .absent)

end NovelScript

def main (arguments : List String) : IO UInt32 := do
  let paths := match NovelScript.Request.ofArguments arguments with
    | .ok (.run invocation) => invocation.files
    | _ => []
  let outcome := NovelScript.Request.answer (← NovelScript.viewOf paths) arguments
  IO.print outcome.output
  IO.eprint outcome.errors
  return UInt32.ofNat outcome.code
