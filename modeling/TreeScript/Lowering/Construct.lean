import TreeScript.Lowering.Value

/-!
# Lowering of constructs

`lower` lowers a node, `lowerAll` a list of nodes in order. A node that is no construct stops
lowering. Each construct with a body is given the lowering of its body, so that the shape of the
code it emits can be read off in one place.
-/

namespace TreeScript.Lowering

/-! ## 1. Constructs with a body -/

/-- The condition of the comparison flag of a node; without a usable flag, equality. -/
def conditionOf (node : Node) (allowed : List Condition) : Emit Condition := do
  match node.attribute? "type" with
  | none => return .equal
  | some flag =>
    match (Condition.ofFlag? flag).filter (allowed.contains ·) with
    | some condition => return condition
    | none =>
      report (.unsupportedComparison node.trail node.tag flag)
      return .equal

/-- Compares a variable with a value by their difference, and jumps behind the body. -/
def lowerIf (node : Node) (body : Lower Unit) : Lower Unit := do
  let item ← expected node "item"
  emitSource node .general
  emit .moveRight
  emit (.fetch item)
  emit (.arith "-")
  let condition ← conditionOf node [.equal, .less, .greater, .not]
  let jump ← address
  emit (.condJump condition none)
  inScope body
  let landing ← address
  emit .nop
  patch jump landing

/-- Tests a variable against a value before every pass. -/
def lowerWhile (node : Node) (body : Lower Unit) : Lower Unit := do
  let name ← expected node "name"
  -- the jump back leads to the value, which is evaluated anew on every pass
  let top ← address
  emitSource node .general
  emit .moveRight
  emit (.fetch name)
  emit (.arith "==")
  let jump ← address
  emit (.condJump .equal none)
  inScope body
  emit (.jump top)
  patch jump (← address)

/-- Counts a new variable down until it is used up. -/
def lowerFor (node : Node) (body : Lower Unit) : Lower Unit := do
  let name ← expected node "name"
  emitSource node .count
  emit (.declareNew name)
  -- the count is evaluated once: the jump back leads behind it
  let top ← address
  emit (.condJump .done none)
  inScope body
  emit (.loadLiteral "1")
  emit .moveRight
  emit (.fetch name)
  emit (.arith "-")
  emit (.store name)
  emit (.jump top)
  patch top (← address)

/-- Asserts something about a variable, and goes on behind the body. -/
def lowerAssertion (node : Node) (body : Lower Unit) : Lower Unit := do
  let item ← expected node "item"
  emit (.fetch item)
  let condition ← conditionOf node [.equal, .not]
  let assertion ← address
  emit (.assert condition none)
  inScope body
  let landing ← address
  emit .nop
  patch assertion landing

/-! ## 2. Calls -/

def lowerParameters (node : Node) : Emit Unit :=
  node.children.forM fun child =>
    if child.kind = .construct .set then lowerSet child
    else report (.notParameter child.trail child.tag)

/-- Stores the result of a call, if the node asks for it. -/
def storeResult (node : Node) : Emit Unit := do
  if let some result := node.attribute? "result" then emit (.store result)

/-- Binds parameters and calls by name, in a scope of its own. -/
def lowerCall (node : Node) (dispatch : String → Instruction) : Lower Unit := do
  let name ← expected node "name"
  inScope do
    lowerParameters node
    emit (dispatch name)
  -- the result belongs to the scope around the call
  storeResult node

/-- Binds parameters and calls a method of a receiver, in a scope of its own. -/
def lowerMemberCall (node : Node) : Lower Unit := do
  let receiver ← expected node "name"
  let method ← expected node "method"
  inScope do
    lowerParameters node
    emit (.eval receiver)
    emit (.memberCall method)
  storeResult node

/-! ## 3. Nodes -/

/-- Lowers a construct whose body is lowered by `body`. -/
def lowerConstruct (construct : Construct) (node : Node) (body : Lower Unit) : Lower Unit :=
  match construct with
  | .block => inScope body
  | .buffer => lowerBuffer node
  | .call => lowerCall node .call
  | .exec => lowerCall node .exec
  | .forLoop => lowerFor node body
  | .goto => lowerGoto node
  | .ifThen => lowerIf node body
  | .label => lowerLabel node
  | .memberCall => lowerMemberCall node
  | .math => lowerMath node
  | .assertion => lowerAssertion node body
  | .set => lowerSet node
  | .input => lowerInput node
  | .subroutine => lowerCall node .subroutine
  | .whileLoop => lowerWhile node body
  | .ret => emit .fault

mutual

def lower : Node → Lower Unit
  | ⟨.construct c, tag, attributes, children, text, trail⟩ =>
    lowerConstruct c ⟨.construct c, tag, attributes, children, text, trail⟩ (lowerAll children)
  | ⟨_, tag, _, _, _, trail⟩ => throw (.unsupported tag trail)

/-- Lowers nodes in order, up to the first fault. -/
def lowerAll : List Node → Lower Unit
  | [] => return ()
  | node :: nodes => do
    lower node
    lowerAll nodes

end

end TreeScript.Lowering
