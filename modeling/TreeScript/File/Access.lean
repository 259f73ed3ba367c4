import TreeScript.File.Error
import TreeScript.File.Path

/-!
# Access to files

What the compiler asks of a file system. Commands are written against this interface, so that they
can run on the system's files and be studied on a tree of files that is a value.
-/

namespace TreeScript.File

class Access (m : Type → Type) where
  /-- The path of the working directory. -/
  workingDirectory : m (Except Error Path)
  /-- The contents of a file as text. -/
  readText : Path → m (Except Error String)
  /-- Whether there is a file at a path. -/
  isFile : Path → m Bool
  /-- Whether there is a directory at a path. -/
  isDirectory : Path → m Bool
  /-- Makes a directory inside one that exists. -/
  makeDirectory : Path → m (Except Error Unit)
  /-- Replaces the contents of a file, or makes a new file. -/
  writeText : Path → String → m (Except Error Unit)

export Access (workingDirectory readText isFile isDirectory makeDirectory writeText)

variable {m : Type → Type} [Monad m] [Access m]

/-- Makes a directory unless it is there already. -/
def ensureDirectory (path : Path) : m (Except Error Unit) := do
  match ← makeDirectory path with
  | .ok () => return .ok ()
  | .error error => return if ← isDirectory path then .ok () else .error error

/-- Makes the first of the directories, each of which lies in the next one. -/
def makeDirectoriesIn : List Path → m (Except Error Unit)
  | [] => return .error (.other "failed to create whole tree")
  | path :: parents => do
    if path = "" then return .ok ()
    match ← makeDirectory path with
    -- only a missing parent is a reason to go further up
    | .error .notFound =>
      match ← makeDirectoriesIn parents with
      | .ok () => ensureDirectory path
      | .error error => return .error error
    | .ok () => return .ok ()
    | .error error => return if ← isDirectory path then .ok () else .error error

/-- Makes a directory and the directories it lies in, unless they are there already. -/
def makeDirectories (path : Path) : m (Except Error Unit) :=
  makeDirectoriesIn (Path.ancestors path)

end TreeScript.File
