import TreeScript.Element

/-!
# Nodes

A node is an element together with its kind, decided by its tag, and its trail, the way to it from
the root. Messages name an element by its trail, since a document has no line numbers of its own.
-/

namespace TreeScript

/-! ## 1. Kinds -/

/-- The constructs of code. -/
inductive Construct where
  | block
  | buffer
  | call
  | exec
  | forLoop
  | goto
  | ifThen
  | label
  | memberCall
  | math
  | assertion
  | set
  | input
  | subroutine
  | whileLoop
  | ret
deriving DecidableEq, Repr

def Construct.tag : Construct → String
  | .block => "block"
  | .buffer => "buffer"
  | .call => "call"
  | .exec => "exec"
  | .forLoop => "for"
  | .goto => "goto"
  | .ifThen => "if"
  | .label => "label"
  | .memberCall => "member-call"
  | .math => "math"
  | .assertion => "assert"
  | .set => "set"
  | .input => "input"
  | .subroutine => "subroutine"
  | .whileLoop => "while"
  | .ret => "return"

def Construct.ofTag? : String → Option Construct
  | "block" => some .block
  | "buffer" => some .buffer
  | "call" => some .call
  | "exec" => some .exec
  | "for" => some .forLoop
  | "goto" => some .goto
  | "if" => some .ifThen
  | "label" => some .label
  | "member-call" => some .memberCall
  | "math" => some .math
  | "assert" => some .assertion
  | "set" => some .set
  | "input" => some .input
  | "subroutine" => some .subroutine
  | "while" => some .whileLoop
  | "return" => some .ret
  | _ => none

/-- The parts of a document around its code. -/
inductive Part where
  | script
  | header
  | code
  | note
  | output
deriving DecidableEq, Repr

def Part.tag : Part → String
  | .script => "script"
  | .header => "header"
  | .code => "code"
  | .note => "note"
  | .output => "output"

def Part.ofTag? : String → Option Part
  | "script" => some .script
  | "header" => some .header
  | "code" => some .code
  | "note" => some .note
  | "output" => some .output
  | _ => none

inductive Kind where
  | construct (construct : Construct)
  | part (part : Part)
  /-- An element that a grammar may accept but that has no meaning here. -/
  | foreign (tag : String)
deriving DecidableEq, Repr

def Kind.ofTag (tag : String) : Kind :=
  match Construct.ofTag? tag with
  | some c => .construct c
  | none =>
    match Part.ofTag? tag with
    | some p => .part p
    | none => .foreign tag

/-! ## 2. Trails -/

/-- The way from the root to an element: the root's tag, then tag and index of a child at a time. -/
structure Trail where
  root : String
  steps : List (String × Nat) := []
deriving DecidableEq, Repr

namespace Trail

def child (trail : Trail) (tag : String) (index : Nat) : Trail :=
  { trail with steps := trail.steps ++ [(tag, index)] }

/-- A trail as messages show it. -/
def text (trail : Trail) : String :=
  "/".intercalate
    (trail.root :: trail.steps.map fun step => step.1 ++ "[" ++ step.2.repr ++ "]")

end Trail

/-! ## 3. Nodes -/

/-- An element with its kind and its trail. -/
structure Node where
  kind : Kind
  tag : String
  attributes : Attributes
  children : List Node
  text : Option String
  trail : Trail

namespace Node

def attribute? (node : Node) (key : String) : Option String :=
  node.attributes.get? key

/-- Whether an attribute is there, whatever its value. -/
def hasAttribute (node : Node) (key : String) : Bool :=
  node.attributes.contains key

/-- The children that are a given part of a document. -/
def partsOf (node : Node) (part : Part) : List Node :=
  node.children.filter fun child => child.kind = .part part

mutual

/-- The node of an element at a trail. -/
def ofElementAt (trail : Trail) : Element → Node
  | ⟨tag, attributes, children, text⟩ =>
    ⟨Kind.ofTag tag, tag, attributes, ofElementsAt trail 0 children, text, trail⟩

/-- The nodes of children from an index on. -/
def ofElementsAt (trail : Trail) (index : Nat) : List Element → List Node
  | [] => []
  | element :: elements =>
    ofElementAt (trail.child element.tag index) element :: ofElementsAt trail (index + 1) elements

end

/-- The node of an element that is a root. -/
def ofElement (element : Element) : Node :=
  ofElementAt ⟨element.tag, []⟩ element

end Node

end TreeScript
