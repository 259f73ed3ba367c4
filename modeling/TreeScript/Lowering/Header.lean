import TreeScript.Diagnostics
import TreeScript.Executable

/-!
# Headers from nodes

The header of an executable is read off the header part of a document. What is wrong with it is
reported, and the header gets a stand-in, so that the code is looked at all the same.
-/

namespace TreeScript.Header

open Reporting (report)

def nameOf (node : Node) : Reporting String := do
  match node.attribute? "name" with
  | some name => return name
  | none => report (.namelessHeader node.trail); return ""

def versionOf (node : Node) : Reporting Version := do
  match node.attribute? "version-number" with
  | none => report (.versionlessHeader node.trail); return ⟨0, 0⟩
  | some version =>
    match Version.parse? version with
    | some parsed => return parsed
    | none => report (.badVersion node.trail version); return ⟨0, 0⟩

/-- The notes of a script, a line each; those without text are left out. -/
def noteOf (node : Node) : Option String :=
  let texts := (node.partsOf .note).filterMap fun note => note.text.map Text.trim
  match texts.filter (· ≠ "") with
  | [] => none
  | texts => some ("\n".intercalate texts)

/-- The output variable of a script. Only the first one counts. -/
def outputOf (node : Node) : Reporting (Option OutputVariable) := do
  match node.partsOf .output with
  | [] => return none
  | first :: extra =>
    extra.forM fun output => report (.extraOutput output.trail)
    return some ⟨(first.attribute? "name").getD "", first.attribute? "type"⟩

def ofNode (node : Node) : Reporting Header := do
  let name ← nameOf node
  let version ← versionOf node
  let output ← outputOf node
  return { name, uid := node.attribute? "uid", version, note := noteOf node, output }

end TreeScript.Header
