import TreeScript.Instruction
import TreeScript.Text.Lines
import TreeScript.Version

/-!
# Executables

The result of a compile: a header and code. An executable is written as a listing for people and
as JSON for an interpreter; the JSON can be read back.
-/

namespace TreeScript

/-! ## 1. Headers and executables -/

/-- The variable that a script hands back. -/
structure OutputVariable where
  name : String
  typeTag : Option String := none
deriving DecidableEq, Repr

/-- What a script says about itself. -/
structure Header where
  name : String
  uid : Option String := none
  version : Version
  note : Option String := none
  output : Option OutputVariable := none
deriving DecidableEq, Repr

structure Executable where
  header : Header
  code : Code
deriving DecidableEq, Repr

/-! ## 2. Listing -/

/-- The header of a listing: every line starts with a semicolon. -/
def Header.listing (header : Header) : List String :=
  let uid := header.uid.map fun uid => "; uid " ++ uid
  let note := (header.note.map Text.lines).getD []
  let output := header.output.map fun output =>
    "; output " ++ output.name ++ (output.typeTag.map (": " ++ ·)).getD ""
  ["; " ++ header.name ++ " v" ++ header.version.text] ++ uid.toList ++ note.map ("; " ++ ·) ++
    output.toList

/-- The instructions of a listing, each behind its address. -/
def Code.listing (code : Code) : List String :=
  let columns := (code.size - 1).repr.length
  code.toList.zipIdx.map fun (instruction, address) =>
    String.ofList (List.leftpad columns ' ' address.repr.toList) ++ ": " ++ instruction.text

namespace Executable

def listing (executable : Executable) : String :=
  String.join ((executable.header.listing ++ Code.listing executable.code).map (· ++ "\n"))

end Executable

/-! ## 3. JSON -/

/-- The members of an object for a value that may be absent. -/
def optionalMember (key : String) (value : Option Json.Value) : List (String × Json.Value) :=
  (value.map fun value => (key, value)).toList

def OutputVariable.toJson (output : OutputVariable) : Json.Value :=
  .object (("name", .string output.name) ::
    optionalMember "type_tag" (output.typeTag.map .string))

/-- A header as JSON; what is absent is left out. -/
def Header.toJson (header : Header) : Json.Value :=
  .object ([("name", .string header.name)] ++
    optionalMember "uid" (header.uid.map .string) ++
    [("major", .natural header.version.major.toNat),
      ("minor", .natural header.version.minor.toNat)] ++
    optionalMember "note" (header.note.map .string) ++
    optionalMember "output" (header.output.map OutputVariable.toJson))

namespace Executable

def toJson (executable : Executable) : Json.Value :=
  .object [("header", executable.header.toJson),
    ("instructions", .list (executable.code.toList.map Instruction.toJson))]

def jsonText (executable : Executable) : String :=
  String.ofList (executable.toJson.pretty 0)

end Executable

/-! ## 4. Reading JSON -/

structure OutputVariable.Fields where
  name : Option String := none
  typeTag : Option (Option String) := none

/-- An output variable is a record; its type may be left out. -/
def OutputVariable.layout : Json.Record OutputVariable.Fields OutputVariable where
  name := "an output variable"
  fields :=
    [ { name := "name"
        filled := fun s => s.name.isSome
        reader := Json.string.map fun name s => { s with name := some name }
        skippable := false },
      { name := "type_tag"
        filled := fun s => s.typeTag.isSome
        reader := (Json.optional Json.string).map fun typeTag s =>
          { s with typeTag := some typeTag }
        skippable := true } ]
  initial := {}
  finish s :=
    match s.name with
    | none => .error (.missingField "name")
    | some name => .ok ⟨name, s.typeTag.getD none⟩

structure Header.Fields where
  name : Option String := none
  uid : Option (Option String) := none
  major : Option UInt32 := none
  minor : Option UInt32 := none
  note : Option (Option String) := none
  output : Option (Option OutputVariable) := none

def versionReader : Json.Reader UInt32 :=
  (Json.natural "a version number" 0xffffffff).map UInt32.ofNat

/-- A header is a record; identifier, note and output may be left out. -/
def Header.layout (depth : Nat) : Json.Record Header.Fields Header where
  name := "a header"
  fields :=
    [ { name := "name"
        filled := fun s => s.name.isSome
        reader := Json.string.map fun name s => { s with name := some name }
        skippable := false },
      { name := "uid"
        filled := fun s => s.uid.isSome
        reader := (Json.optional Json.string).map fun uid s => { s with uid := some uid }
        skippable := true },
      { name := "major"
        filled := fun s => s.major.isSome
        reader := versionReader.map fun major s => { s with major := some major }
        skippable := false },
      { name := "minor"
        filled := fun s => s.minor.isSome
        reader := versionReader.map fun minor s => { s with minor := some minor }
        skippable := false },
      { name := "note"
        filled := fun s => s.note.isSome
        reader := (Json.optional Json.string).map fun note s => { s with note := some note }
        skippable := true },
      { name := "output"
        filled := fun s => s.output.isSome
        reader := (Json.optional (Json.record depth OutputVariable.layout)).map fun output s =>
          { s with output := some output }
        skippable := true } ]
  initial := {}
  finish s :=
    match s.name, s.major, s.minor with
    | none, _, _ => .error (.missingField "name")
    | _, none, _ => .error (.missingField "major")
    | _, _, none => .error (.missingField "minor")
    | some name, some major, some minor =>
      .ok ⟨name, s.uid.getD none, ⟨major, minor⟩, s.note.getD none, s.output.getD none⟩

namespace Executable

structure Fields where
  header : Option Header := none
  code : Option (List Instruction) := none

/-- An executable is a record of a header and instructions. -/
def layout (depth : Nat) : Json.Record Fields Executable where
  name := "an executable"
  fields :=
    [ { name := "header"
        filled := fun s => s.header.isSome
        reader := (Json.record depth (Header.layout (depth - 1))).map fun header s =>
          { s with header := some header }
        skippable := false },
      { name := "instructions"
        filled := fun s => s.code.isSome
        reader := (Json.list depth (Instruction.reader (depth - 1))).map fun code s =>
          { s with code := some code }
        skippable := false } ]
  initial := {}
  finish s :=
    match s.header, s.code with
    | none, _ => .error (.missingField "header")
    | _, none => .error (.missingField "instructions")
    | some header, some code => .ok ⟨header, code.toArray⟩

def read (text : List Char) : Except Json.Fault Executable :=
  Json.read (Json.record Json.maxDepth (layout (Json.maxDepth - 1))) text

end Executable

end TreeScript
