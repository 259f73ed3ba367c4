import TreeScript.File.Access

/-!
# File trees

A tree of directories and files, with a working directory. `Tree.locate` looks a path up the way a
system does: every name but the last one has to be a directory, so a slash behind the name of a
file is refused.
-/

namespace TreeScript.File

/-! ## 1. Trees -/

/-- A place in a tree: the names from the root to it. -/
abbrev Location := List String

inductive Entry where
  | directory
  | file (contents : ByteArray)

/-- Directories and files by their places, and the working directory. The root is always a
directory. -/
structure Tree where
  home : Location := []
  directories : List Location := []
  files : List (Location × ByteArray) := []

namespace Tree

def entry? (tree : Tree) (location : Location) : Option Entry :=
  match tree.files.lookup location with
  | some contents => some (.file contents)
  | none => if location = [] ∨ location ∈ tree.directories then some .directory else none

def addDirectory (tree : Tree) (location : Location) : Tree :=
  { tree with directories := location :: tree.directories }

def setFile (tree : Tree) (location : Location) (contents : ByteArray) : Tree :=
  { tree with files := (location, contents) :: tree.files.filter (·.1 ≠ location) }

/-! ## 2. Looking up -/

def maxNameSize : Nat := 255

def maxPathSize : Nat := 4095

/-- Goes on from a directory by a name. -/
def step (tree : Tree) (here : Location) (name : String) : Except Error Location :=
  match tree.entry? here with
  | none => .error .notFound
  | some (.file _) => .error .notDirectory
  | some .directory =>
    if Path.isSilent name then .ok here
    else if name = ".." then .ok here.dropLast
    else if maxNameSize < name.utf8ByteSize then .error .nameTooLong
    else .ok (here ++ [name])

/-- The place that names lead to from the start of a path. -/
def follow (tree : Tree) (path : Path) (names : List String) : Except Error Location :=
  if path = "" then .error .notFound
  else if path.toList.contains '\x00' then .error .nulInName
  else if maxPathSize < path.utf8ByteSize then .error .nameTooLong
  else names.foldlM tree.step (if Path.isAbsolute path then [] else tree.home)

/-- The place of a path, whether or not anything is there. -/
def locate (tree : Tree) (path : Path) : Except Error Location :=
  tree.follow path (Path.names path)

def lookup (tree : Tree) (path : Path) : Except Error Entry := do
  match tree.entry? (← tree.locate path) with
  | some entry => return entry
  | none => throw .notFound

/-- The names of a path without slashes at its end. -/
def innerNames (path : Path) : List String :=
  ((Path.names path).reverse.dropWhile (· = "")).reverse

/-! ## 3. Operations -/

def readText (tree : Tree) (path : Path) : Except Error String := do
  match ← tree.lookup path with
  | .directory => throw .isDirectory
  | .file contents =>
    match String.fromUTF8? contents with
    | some text => return text
    | none => throw .notText

def isFile (tree : Tree) (path : Path) : Bool :=
  match tree.lookup path with
  | .ok (.file _) => true
  | _ => false

def isDirectory (tree : Tree) (path : Path) : Bool :=
  match tree.lookup path with
  | .ok .directory => true
  | _ => false

/-- The tree with a new directory. -/
def makeDirectory (tree : Tree) (path : Path) : Except Error Tree := do
  let names := innerNames path
  let location ← tree.follow path names
  -- nothing is made by a path that ends in a dot or in two
  let isName := (names.getLast?.map fun name => !Path.isSilent name && name != "..").getD false
  if isName ∧ (tree.entry? location).isNone then return tree.addDirectory location
  else throw .alreadyExists

/-- The tree with new contents of a file. -/
def writeText (tree : Tree) (path : Path) (text : String) : Except Error Tree := do
  let names := innerNames path
  if path.toList.getLast? = some '/' then
    -- a directory is asked for, which is refused before the last name is looked at
    let _ ← tree.step (← tree.follow path names.dropLast) "."
    throw .isDirectory
  else
    let location ← tree.follow path names
    match tree.entry? location with
    | some .directory => throw .isDirectory
    | _ => return tree.setFile location text.toUTF8

def pathOf (location : Location) : Path :=
  "/" ++ "/".intercalate location

end Tree

/-! ## 4. Access -/

/-- Carries out an operation that changes a tree; a failing one leaves it as it is. -/
def Tree.change (operation : Tree → Except Error Tree) : StateM Tree (Except Error Unit) := do
  match operation (← get) with
  | .ok tree => set tree; return .ok ()
  | .error error => return .error error

instance : Access (StateM Tree) where
  workingDirectory := do return .ok (Tree.pathOf (← get).home)
  readText path := do return (← get).readText path
  isFile path := do return (← get).isFile path
  isDirectory path := do return (← get).isDirectory path
  makeDirectory path := Tree.change fun tree => tree.makeDirectory path
  writeText path text := Tree.change fun tree => tree.writeText path text

end TreeScript.File
