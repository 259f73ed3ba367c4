/-!
# Paths

A path is a text with names between slashes. Nothing is looked up here: these operations only cut
and join texts. Empty names count for nothing, and neither does a dot that is not in front.
-/

namespace TreeScript.File

abbrev Path := String

namespace Path

/-! ## 1. Names -/

/-- Cuts a text at every slash; `name` holds the current name in reverse. -/
def namesFrom (name : List Char) : List Char → List String
  | [] => [String.ofList name.reverse]
  | c :: cs =>
    if c = '/' then String.ofList name.reverse :: namesFrom [] cs else namesFrom (c :: name) cs

/-- The names between the slashes of a path, empty ones included. -/
def names (path : Path) : List String :=
  namesFrom [] path.toList

def isAbsolute (path : Path) : Bool :=
  path.toList.head? = some '/'

/-- Whether a name counts for nothing, unless it is in front. -/
def isSilent (name : String) : Bool :=
  name = "" || name = "."

/-- The path with these names, given from the last one to the first one. An empty name alone is
the root. -/
def ofReversed : List String → Path
  | [""] => "/"
  | names => "/".intercalate names.reverse

/-! ## 2. Going up -/

/-- A path without silent names at its end, its parent, the parent of that one and so on. The
names are given from the last one to the first one. -/
def ancestorsFrom : List String → List Path
  | [] => []
  | [first] => if first = "" then ["/"] else [first, ""]
  | name :: next :: rest =>
    if isSilent name then ancestorsFrom (next :: rest)
    else ofReversed (name :: next :: rest) :: ancestorsFrom (next :: rest)

/-- A path and the directories it lies in, from the inside out. -/
def ancestors (path : Path) : List Path :=
  if path = "" then [""] else ancestorsFrom (names path).reverse

/-- The directory a path lies in, except for the root and the empty path. -/
def parent? (path : Path) : Option Path :=
  (ancestors path)[1]?

/-! ## 3. Going down -/

/-- A path taken relative to a directory. An absolute path stays as it is. -/
def join (base path : Path) : Path :=
  if isAbsolute path then path
  else if base = "" ∨ base.toList.getLast? = some '/' then base ++ path
  else base ++ "/" ++ path

/-! ## 4. File names -/

/-- A file name without its extension. -/
def stemOf (name : String) : String :=
  let reversed := name.toList.reverse
  let extension := reversed.takeWhile (· ≠ '.')
  let stem := (reversed.drop (extension.length + 1)).reverse
  -- a dot in front starts no extension
  if stem.isEmpty then name else String.ofList stem

/-- The last name that is not silent, or the first name of all. The names are given from the last
one to the first one. -/
def lastName? : List String → Option String
  | [] => none
  | [first] => some first
  | name :: next :: rest => if isSilent name then lastName? (next :: rest) else some name

/-- The last name of a path without its extension, if it names a file. -/
def stem? (path : Path) : Option String :=
  match lastName? (names path).reverse with
  | none => none
  | some name => if isSilent name ∨ name = ".." then none else some (stemOf name)

end Path

end TreeScript.File
