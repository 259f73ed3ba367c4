import TreeScript.Json.Reader
import TreeScript.Json.Value
import TreeScript.SortedMap
import TreeScript.Text.Quoted

/-!
# Elements

A document is a tree of elements: a tag, attributes, children and perhaps text. Nothing about an
element has been checked yet; a grammar does that.

`Element.reader` reads an element from JSON, `Element.toJson` writes it.
-/

namespace TreeScript

open TreeScript.Text (quoted)

/-! ## 1. Attributes and elements -/

/-- The attributes of an element by name. Values are plain text; what they mean is up to the
construct that reads them. -/
abbrev Attributes := SortedMap String

/-- The attributes as they are shown: each with its quoted value, in order of the names. -/
def Attributes.text (attributes : Attributes) : String :=
  " ".intercalate (attributes.entries.map fun entry => entry.1 ++ "=" ++ quoted entry.2)

structure Element where
  tag : String
  attributes : Attributes := ∅
  children : List Element := []
  text : Option String := none

instance : Inhabited Element := ⟨⟨"", ∅, [], none⟩⟩

namespace Element

/-! ## 2. Reading -/

/-- The fields of an element that have been read so far. -/
structure Fields where
  tag : Option String := none
  attributes : Option Attributes := none
  children : Option (List Element) := none
  text : Option (Option String) := none

/-- An element is a record; only its tag must be there. `depth` brackets may be opened inside it,
and `child` reads its children. -/
def layout (depth : Nat) (child : Json.Reader Element) : Json.Record Fields Element where
  name := "struct Element"
  fields :=
    [ { name := "tag"
        filled := fun fields => fields.tag.isSome
        reader := Json.string.map fun tag fields => { fields with tag := some tag }
        skippable := false },
      { name := "attributes"
        filled := fun fields => fields.attributes.isSome
        reader := (Json.map depth Json.string).map fun entries fields =>
          { fields with attributes := some (SortedMap.ofList entries) }
        skippable := true },
      { name := "children"
        filled := fun fields => fields.children.isSome
        reader := (Json.list depth child).map fun children fields =>
          { fields with children := some children }
        skippable := true },
      { name := "text"
        filled := fun fields => fields.text.isSome
        reader := (Json.optional Json.string).map fun text fields =>
          { fields with text := some text }
        skippable := true } ]
  initial := {}
  finish fields :=
    match fields.tag with
    | none => .error (.missingField "tag")
    | some tag =>
      .ok ⟨tag, fields.attributes.getD ∅, fields.children.getD [], fields.text.getD none⟩

/-- Reads an element in which at most `depth` brackets are open at once. -/
def reader : Nat → Json.Reader Element
  | 0 => Json.record 0 (layout 0 (.fail (Json.Fault.ahead .tooDeep)))
  | 1 => Json.record 1 (layout 0 (.fail (Json.Fault.ahead .tooDeep)))
  | depth + 2 => Json.record (depth + 2) (layout (depth + 1) (reader depth))

def read (text : List Char) : Except Json.Fault Element :=
  Json.read (reader Json.maxDepth) text

/-! ## 3. Writing -/

mutual

/-- An element as JSON; the text is left out if there is none. -/
def toJson : Element → Json.Value
  | ⟨tag, attributes, children, text⟩ =>
    .object (("tag", .string tag) ::
      ("attributes", .object (attributes.entries.map fun entry => (entry.1, .string entry.2))) ::
      ("children", .list (listToJson children)) ::
      (text.map fun text => ("text", Json.Value.string text)).toList)

def listToJson : List Element → List Json.Value
  | [] => []
  | element :: elements => element.toJson :: listToJson elements

end

end Element

end TreeScript
