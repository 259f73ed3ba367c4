import TreeScript.File.Error
import TreeScript.File.Path
import TreeScript.SortedMap
import TreeScript.Text.Quoted

/-!
# Grammars

A grammar says which trees of elements are documents: the tag of the root, and a rule for each tag.
-/

namespace TreeScript

open TreeScript.Text (quoted)

structure Rule where
  /-- The attributes it accepts. -/
  attributes : NameSet := ∅
  /-- The attributes it must have. -/
  required : NameSet := ∅
  /-- The tags of the children it accepts. -/
  children : NameSet := ∅
  /-- Whether it may have text. -/
  text : Bool := false
deriving DecidableEq, Repr

/-- Which trees are documents. -/
structure Grammar where
  /-- The name under which the grammar is asked for. -/
  id : String
  /-- The tag of the root. -/
  root : String
  /-- The rules by tag. -/
  rules : SortedMap Rule
deriving DecidableEq, Repr

namespace Grammar

def rule? (grammar : Grammar) (tag : String) : Option Rule :=
  grammar.rules.get? tag

def declares (grammar : Grammar) (tag : String) : Bool :=
  grammar.rules.contains tag

/-! ## Errors -/

inductive Inconsistency where
  | rootUndeclared (root : String)
  | memberUndeclared (group member : String)
  | requiredNotAccepted (tag key : String)
  | groupUnknown (tag group : String)
  | childUndeclared (tag child : String)
deriving DecidableEq, Repr

def Inconsistency.message : Inconsistency → String
  | .rootUndeclared root => "root element " ++ quoted root ++ " is not declared"
  | .memberUndeclared group member =>
    "group " ++ quoted group ++ " names undeclared element " ++ quoted member
  | .requiredNotAccepted tag key =>
    "element " ++ quoted tag ++ " requires attribute " ++ quoted key ++
      " it does not accept"
  | .groupUnknown tag group => "element " ++ quoted tag ++ " uses unknown group " ++ quoted group
  | .childUndeclared tag child =>
    "element " ++ quoted tag ++ " allows undeclared child " ++ quoted child

inductive Error where
  | unknownId (id : String)
  | unreadable (path : File.Path) (cause : File.Error)
  /-- The text is not TOML, or not the declaration of a grammar. -/
  | unparsable
  | inconsistent (id : String) (cause : Inconsistency)
  | wrongId (expected found : String)
deriving DecidableEq, Repr

/-- What is said about a text that cannot be parsed. -/
def unparsableText : String := "TOML parse error"

namespace Error

def message : Error → String
  | .unknownId id => "no grammar registered for " ++ quoted id
  | .unreadable path cause => "failed to read grammar " ++ quoted path ++ ": " ++ cause.message
  | .unparsable => "failed to parse grammar: " ++ unparsableText
  | .inconsistent id cause => "invalid grammar " ++ quoted id ++ ": " ++ cause.message
  | .wrongId expected found =>
    "grammar file declares id " ++ quoted found ++ " but was registered as " ++ quoted expected

/-- The wording of what lies behind an error, if anything does. -/
def causeMessage? : Error → Option String
  | .unreadable _ cause => some cause.message
  | .unparsable => some unparsableText
  | _ => none

end Error

end Grammar

end TreeScript
