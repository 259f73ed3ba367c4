import TreeScript.Lowering.State

/-!
# Values and plain constructs

Constructs take a value from one of several attributes: an expression, a literal, a variable or a
buffer, in this order of precedence. The constructs without a body are lowered here.
-/

namespace TreeScript.Lowering

/-! ## 1. Attributes -/

/-- The value of an attribute that should be there; its absence is reported. -/
def expected? (node : Node) (key : String) : Emit (Option String) := do
  if !node.hasAttribute key then report (.attributeAbsent node.trail node.tag key)
  return node.attribute? key

/-- The value of an attribute that should be there; without it, the empty text. -/
def expected (node : Node) (key : String) : Emit String := do
  return (← expected? node key).getD ""

/-! ## 2. Value sources -/

/-- The attributes a value may come from, by precedence, with the instruction for each. -/
abbrev Sources := List (String × (String → Instruction))

namespace Sources

/-- The sources of most constructs. -/
def general : Sources :=
  [("eval", .eval), ("value", .loadLiteral), ("ref", .fetch), ("buffer", .bufferReduce)]

/-- The sources of the count of a loop. -/
def count : Sources :=
  [("eval", .eval), ("count", .loadLiteral), ("ref", .fetch), ("buffer", .bufferReduce)]

/-- The sources of constructs that read no variable. -/
def unreferenced : Sources :=
  [("eval", .eval), ("value", .loadLiteral), ("buffer", .bufferReduce)]

def keys (sources : Sources) : List String :=
  sources.map Prod.fst

def present (sources : Sources) (node : Node) : List (String × Instruction) :=
  sources.filterMap fun source =>
    (node.attribute? source.1).map fun value => (source.1, source.2 value)

end Sources

/-- The instruction for the value of a node, if it has one. -/
def selectSource (node : Node) (sources : Sources) : Emit (Option Instruction) := do
  match sources.present node with
  | [] => return none
  | (_, instruction) :: [] => return some instruction
  -- what has lower precedence is named in a warning
  | (key, instruction) :: ignored =>
    report (.sourcesIgnored node.trail node.tag key (ignored.map Prod.fst))
    return some instruction

/-- The literal that stands in for a missing value. -/
def placeholder : Instruction := .loadLiteral "0"

def emitSource (node : Node) (sources : Sources) : Emit Unit := do
  match ← selectSource node sources with
  | some instruction => emit instruction
  | none =>
    report (.sourceAbsent node.trail node.tag sources.keys)
    emit placeholder

/-! ## 3. Variables and buffers -/

/-- Sets a variable, or declares it if it is new. -/
def lowerSet (node : Node) : Emit Unit := do
  let name ← expected node "name"
  emitSource node .general
  emit (if node.hasAttribute "new" then .declareNew name else .store name)

def lowerInput (node : Node) : Emit Unit := do
  let name ← expected node "name"
  emitSource node .unreferenced
  emit (.declareNew name)

def lowerMath (node : Node) : Emit Unit := do
  let left ← expected node "left"
  let operator ← expected node "oper"
  emitSource node .general
  emit .moveRight
  emit (.fetch left)
  emit (.arith operator)
  -- without an output the left operand is overwritten
  emit (.store ((node.attribute? "output").getD left))

/-- The text of a node, if it is not empty. -/
def textOf? (node : Node) : Option String :=
  node.text.filter (· ≠ "")

/-- Appends the value and the text of a node to a buffer, which may be cleared first. -/
def lowerBuffer (node : Node) : Emit Unit := do
  let name ← expected node "name"
  if node.hasAttribute "clear" then emit (.clearBuffer name)
  let source ← selectSource node .unreferenced
  let appended := source.toList ++ (textOf? node).toList.map .loadLiteral
  appended.forM fun instruction => do
    emit instruction
    emit (.merge name)
  -- with nothing to append the buffer is cleared, but not twice
  if !node.hasAttribute "clear" && appended.isEmpty then
    report (.bufferCleared node.trail name)
    emit (.clearBuffer name)

/-! ## 4. Labels and gotos -/

def lowerGoto (node : Node) : Emit Unit := do
  let label ← expected? node "label"
  let here ← address
  emit (.goto (label.getD "") none)
  -- a goto without a label is never linked
  if let some label := label then await label here

/-- Defines a label at the next instruction. -/
def lowerLabel (node : Node) : Emit Unit := do
  if let some name ← expected? node "name" then
    if let some first ← define name (← address) then
      report (.labelRedefined node.trail name first)

end TreeScript.Lowering
