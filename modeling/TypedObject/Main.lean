import TypedObject.Command.Run

/-!
# The program

Runs a command line on the files of the disk.  Reports go to standard output and errors to
standard error.
-/

namespace TypedObject.Command

/-- The files of the disk.  Whatever goes wrong with a file counts as its not being there. -/
def disk : FileAccess IO where
  read? path := do
    try return some (← IO.FS.readBinFile path).data.toList
    catch _ => return none
  makeDirectory path := do
    try
      IO.FS.createDirAll path
      return true
    catch _ => return false
  write path content := do
    try
      IO.FS.writeBinFile path ⟨content.toArray⟩
      return true
    catch _ => return false

def errorText : List String → String
  | [] => "Error"
  | [message] => "Error: " ++ message
  | message :: causes =>
    "Error: " ++ message ++ "\n\nCaused by:\n    " ++ String.intercalate "\n    " causes

def report (outcome : Outcome) : IO Unit := do
  IO.print outcome.output
  match outcome with
  | .misused => IO.eprint Help.overview.text
  | .finished _ (some failure) => IO.eprintln (errorText failure.chain)
  | _ => return

end TypedObject.Command

def main (arguments : List String) : IO UInt32 := do
  let outcome ← TypedObject.Command.run TypedObject.Command.disk arguments
  TypedObject.Command.report outcome
  return UInt32.ofNat outcome.code
