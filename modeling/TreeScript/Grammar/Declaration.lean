import TreeScript.Grammar.Basic
import TreeScript.Toml.Decode
import TreeScript.Toml.Reader

/-!
# Declarations of grammars

A grammar is declared in a TOML text. Tags can be collected in groups, and a group stands among
the children of an element for all its members. `Declaration.build` checks that a declaration is
consistent and expands its groups.
-/

namespace TreeScript

namespace Grammar

/-! ## 1. Declarations -/

structure ElementDeclaration where
  attributes : List String := []
  required : List String := []
  /-- Tags, and groups behind an at sign. -/
  children : List String := []
  text : Bool := false

structure Declaration where
  id : String
  root : String
  /-- The members of groups. -/
  groups : SortedMap (List String) := ∅
  elements : SortedMap ElementDeclaration

/-! ## 2. Reading -/

def namesOf? : Toml.Value → Option (List String) :=
  Toml.Value.listOf? Toml.Value.string?

/-- The declaration of an element; what it does not say is empty. -/
def ElementDeclaration.of? (value : Toml.Value) : Option ElementDeclaration := do
  let fields ← Toml.Fields.of? ["attributes", "required", "children", "text"] value
  return {
    attributes := ← fields.orElse? "attributes" [] namesOf?
    required := ← fields.orElse? "required" [] namesOf?
    children := ← fields.orElse? "children" [] namesOf?
    text := ← fields.orElse? "text" false Toml.Value.boolean? }

def Declaration.of? (entries : Toml.Entries) : Option Declaration := do
  let fields := Toml.Fields.ofEntries entries
  return {
    id := ← fields.required? "id" Toml.Value.string?
    root := ← fields.required? "root" Toml.Value.string?
    groups := ← fields.orElse? "groups" ∅ (Toml.Value.mapOf? namesOf?)
    elements := ← fields.required? "elements" (Toml.Value.mapOf? ElementDeclaration.of?) }

/-! ## 3. Building -/

namespace Declaration

/-- Refuses a declaration whose root is no element. -/
def checkRoot (declaration : Declaration) : Except Inconsistency Unit :=
  if declaration.elements.contains declaration.root then .ok ()
  else .error (.rootUndeclared declaration.root)

/-- Refuses a group with a member that is no element. -/
def checkGroup (declaration : Declaration) (group : String × List String) :
    Except Inconsistency Unit :=
  match group.2.find? fun member => !declaration.elements.contains member with
  | some member => .error (.memberUndeclared group.1 member)
  | none => .ok ()

/-- The tags that an item of a list of children stands for. -/
def expandChild (declaration : Declaration) (tag child : String) :
    Except Inconsistency (List String) :=
  match child.toList with
  -- a group stands for its members
  | '@' :: group =>
    match declaration.groups.get? (String.ofList group) with
    | some members => .ok members
    | none => .error (.groupUnknown tag (String.ofList group))
  | _ =>
    if declaration.elements.contains child then .ok [child]
    else .error (.childUndeclared tag child)

def rule (declaration : Declaration) (tag : String) (element : ElementDeclaration) :
    Except Inconsistency Rule := do
  match element.required.find? fun key => !element.attributes.contains key with
  | some key => throw (.requiredNotAccepted tag key)
  | none =>
    let children ← element.children.mapM (declaration.expandChild tag)
    return {
      attributes := .ofNames element.attributes
      required := .ofNames element.required
      children := .ofNames children.flatten
      text := element.text }

/-- The grammar that is declared, unless the declaration is inconsistent. -/
def build (declaration : Declaration) : Except Inconsistency Grammar := do
  declaration.checkRoot
  declaration.groups.entries.forM declaration.checkGroup
  let rules ← declaration.elements.entries.mapM fun entry =>
    (declaration.rule entry.1 entry.2).map fun rule => (entry.1, rule)
  return ⟨declaration.id, declaration.root, SortedMap.ofList rules⟩

end Declaration

def parse (text : String) : Except Error Grammar :=
  match (Toml.read text.toList).bind Declaration.of? with
  | none => .error .unparsable
  | some declaration =>
    match declaration.build with
    | .ok grammar => .ok grammar
    | .error cause => .error (.inconsistent declaration.id cause)

end Grammar

end TreeScript
