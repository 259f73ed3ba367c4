import TreeScript.Lowering.Construct

/-!
# Strategies

How the code part of a document is lowered is up to a strategy. The standard one lowers its nodes;
another one may be put together from steps.
-/

namespace TreeScript.Lowering

/-! ## 1. Steps -/

inductive Step where
  /-- Lowers a node. -/
  | lower (node : Node)
  /-- Lowers the children of a node. -/
  | children (node : Node)
  | emit (instruction : Instruction)
  | patch (address target : Nat)
  /-- Asks for the address of the next instruction. -/
  | address
  | define (name : String) (address : Nat)
  /-- Asks for the address of a label. -/
  | lookup (name : String)
  /-- Records a goto that waits for its label. -/
  | await (label : String) (address : Nat)
  | scope (body : List Step)
  | resolve

inductive Answer where
  | nothing
  | address (address : Nat)
  /-- The label had been defined before. -/
  | existing (address : Nat)
deriving DecidableEq, Repr

mutual

def Step.run : Step → Lower Answer
  | .lower node => do lower node; return .nothing
  | .children node => do lowerAll node.children; return .nothing
  | .emit instruction => do
    let here ← address
    emit instruction
    return .address here
  | .patch address target => do patch address target; return .nothing
  | .address => return .address (← address)
  | .define name address => return ((← define name address).map .existing).getD .nothing
  | .lookup name => return (((← get).labels.get? name).map .address).getD .nothing
  | .await label address => do await label address; return .nothing
  | .scope body => do inScope (runAll body); return .nothing
  | .resolve => do resolve; return .nothing

/-- Carries out steps in order, up to the first fault. -/
def runAll : List Step → Lower Unit
  | [] => return ()
  | step :: steps => do
    discard step.run
    runAll steps

end

/-! ## 2. Strategies -/

/-- A way to lower the code part of a document. -/
abbrev Strategy := Node → Lower Unit

namespace Strategy

def standard : Strategy :=
  fun code => lowerAll code.children

/-- Carries out steps, which may depend on the code. -/
def ofSteps (steps : Node → List Step) : Strategy :=
  fun code => runAll (steps code)

end Strategy

end TreeScript.Lowering
