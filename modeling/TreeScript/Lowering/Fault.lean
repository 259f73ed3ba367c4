import TreeScript.Node

/-!
# Faults of lowering

What makes lowering stop, as opposed to what is reported and passed over.
-/

namespace TreeScript.Lowering

inductive Fault where
  /-- The node is no construct. -/
  | unsupported (tag : String) (trail : Trail)
  /-- The document lacks a part. -/
  | missingPart (part : Part)
  /-- The instruction has no target that could be set. -/
  | notPatchable (address : Nat)
  /-- The target has been set before. -/
  | alreadyPatched (address : Nat)
  /-- There is no instruction at the address. -/
  | outOfRange (address : Nat)
deriving DecidableEq, Repr

def Fault.message : Fault → String
  | .unsupported tag trail => trail.text ++ ": no lowering exists for <" ++ tag ++ ">"
  | .missingPart part => "document has no <" ++ part.tag ++ "> section"
  | .notPatchable address => "instruction at @" ++ address.repr ++ " has no target to patch"
  | .alreadyPatched address =>
    "target of instruction at @" ++ address.repr ++ " was already patched"
  | .outOfRange address => "address @" ++ address.repr ++ " is past the end of the code"

end TreeScript.Lowering
