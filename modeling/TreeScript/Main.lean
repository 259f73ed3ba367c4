import TreeScript.Command

/-!
# The program

Runs a command line on the files of the system.
-/

namespace TreeScript.System

def fileError : IO.Error → File.Error
  | .noFileOrDirectory .. => .notFound
  | .alreadyExists .. => .alreadyExists
  | .inappropriateType _ 20 _ => .notDirectory
  | .inappropriateType _ 21 _ => .isDirectory
  | error => .other (toString error)

/-- Carries out an action, and gives its error as a value. -/
def attempt {α : Type} (action : IO α) : IO (Except File.Error α) := do
  try return .ok (← action)
  catch error => return .error (fileError error)

/-- The type of what is at a path, if anything is. -/
def typeAt? (path : File.Path) : IO (Option IO.FS.FileType) := do
  match ← attempt do (← IO.FS.realPath path).metadata with
  | .ok data => return some data.type
  | .error _ => return none

def isDirectory (path : File.Path) : IO Bool := do
  return (← typeAt? path) matches some .dir

def readText (path : File.Path) : IO (Except File.Error String) := do
  if ← isDirectory path then return .error .isDirectory
  match ← attempt (IO.FS.readBinFile path) with
  | .error error => return .error error
  | .ok contents =>
    match String.fromUTF8? contents with
    | some text => return .ok text
    | none => return .error .notText

instance : File.Access IO where
  workingDirectory := attempt do return (← IO.currentDir).toString
  readText := readText
  isFile path := do return (← typeAt? path) matches some .file
  isDirectory := isDirectory
  makeDirectory path := attempt (IO.FS.createDir path)
  writeText path text := attempt (IO.FS.writeFile path text)

end TreeScript.System

def main (arguments : List String) : IO UInt32 := do
  let terminal ← (← IO.getStderr).isTty
  let outcome ← TreeScript.Command.run terminal arguments
  IO.eprint outcome.messages
  IO.print outcome.output
  return outcome.code.toUInt32
