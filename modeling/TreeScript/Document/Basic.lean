import TreeScript.Element
import TreeScript.File.Error
import TreeScript.File.Path

/-!
# Documents

A document is the element tree of a source. A source that holds no element tree is refused with
the first fault in its text: malformed if the text is not JSON or ends too early, misshapen if it
is JSON of another shape.
-/

namespace TreeScript

open TreeScript.Text (quoted Position)

structure Source where
  text : String
  path : File.Path
deriving DecidableEq, Repr

inductive DocumentError where
  | unreadable (path : File.Path) (cause : File.Error)
  | malformed (path : File.Path) (position : Position) (message : String)
  | misshapen (path : File.Path) (position : Position) (message : String)
deriving DecidableEq, Repr

def DocumentError.message : DocumentError → String
  | .unreadable path cause =>
    "failed to read document " ++ quoted path ++ ": " ++ cause.message
  | .malformed _ position message =>
    "syntax error at line " ++ position.line.repr ++ ", column " ++ position.column.repr ++ ": " ++
      message
  | .misshapen _ position message =>
    "document is not an element tree (line " ++ position.line.repr ++ ", column " ++
      position.column.repr ++ "): " ++ message

/-- An element tree, and the path of its source if it has one. -/
structure Document where
  path : Option String := none
  root : Element

namespace Document

def errorOfFault (source : Source) (fault : Json.Fault) : DocumentError :=
  let text := source.text.toList
  let position := fault.position text
  let message := fault.message text
  match fault.cause.category with
  | .misshapen => .misshapen source.path position message
  | .malformed | .truncated => .malformed source.path position message

def parse (source : Source) : Except DocumentError Document :=
  match Element.read source.text.toList with
  | .ok root => .ok ⟨some source.path, root⟩
  | .error fault => .error (errorOfFault source fault)

end Document

end TreeScript
