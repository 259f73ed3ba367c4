import TreeScript.Diagnostics
import TreeScript.Instruction

/-!
# The state of lowering

Lowering appends instructions to the code. An instruction whose target is not known yet is emitted
with a pending target and patched later. Labels are recorded with their addresses, and each goto
leaves a fixup, which is resolved when all labels are known.

* `emit` appends an instruction, `patch` sets a pending target once.
* `inScope` puts a body between the instructions that enter and leave a scope.
* `resolve` links the gotos to their labels.
-/

namespace TreeScript.Lowering

open TreeScript.Text (quoted)

/-! ## 1. States -/

/-- A goto that waits for the address of its label. -/
structure Fixup where
  label : String
  /-- The address of the goto. -/
  address : Nat
deriving DecidableEq, Repr

/-- An order in which the labels of a table are gone through. No compile can choose it, and two
compiles of one document may find different ones. -/
structure LabelOrder where
  arrange : SortedMap Nat → List (String × Nat)
  perm : ∀ labels, (arrange labels).Perm labels.entries

namespace LabelOrder

/-- Puts a label in front of the first one whose name does not come before its own. -/
def insertLabel (label : String × Nat) : List (String × Nat) → List (String × Nat)
  | [] => [label]
  | other :: labels =>
    if quoted label.1 ≤ quoted other.1 then label :: other :: labels
    else other :: insertLabel label labels

theorem insertLabel_perm (label : String × Nat) (labels : List (String × Nat)) :
    (insertLabel label labels).Perm (label :: labels) := by
  induction labels with
  | nil => exact .rfl
  | cons other labels ih =>
    rw [insertLabel]
    split
    · exact .rfl
    · exact (ih.cons other).trans (.swap label other labels)

theorem foldr_insertLabel_perm (labels : List (String × Nat)) :
    (labels.foldr insertLabel []).Perm labels := by
  induction labels with
  | nil => exact .rfl
  | cons label labels ih => exact (insertLabel_perm label _).trans (ih.cons label)

/-- The order of names as messages quote them. -/
def byName : LabelOrder where
  arrange labels := labels.entries.foldr insertLabel []
  perm labels := foldr_insertLabel_perm labels.entries

end LabelOrder

/-- The code so far, the labels that are known with the order they are gone through in, the fixups
that are pending, and the diagnostics. -/
structure State where
  code : Code := #[]
  labels : SortedMap Nat := ∅
  order : LabelOrder := .byName
  fixups : Array Fixup := #[]
  diagnostics : Diagnostics := {}

/-- A computation that emits code and cannot fail. -/
abbrev Emit := StateM State

/-- A computation that emits code and may stop. What it did before it stopped remains. -/
abbrev Lower := ExceptT Fault Emit

namespace State

/-- Sets the target of the instruction at an address. -/
def patch (state : State) (address target : Nat) : Except Fault State :=
  match state.code[address]? with
  | none => .error (.outOfRange address)
  | some instruction =>
    if !instruction.isPatchable then .error (.notPatchable address)
    else if instruction.target?.isSome then .error (.alreadyPatched address)
    else
      .ok { state with code := state.code.setIfInBounds address (instruction.withTarget target) }

end State

/-! ## 2. Emitting -/

def report (entry : Diagnostic) : Emit Unit :=
  modify fun state => { state with diagnostics := state.diagnostics.report entry }

/-- The address of the next instruction. -/
def address : Emit Nat := do
  return (← get).code.size

def emit (instruction : Instruction) : Emit Unit :=
  modify fun state => { state with code := state.code.push instruction }

def patch (address target : Nat) : Lower Unit := do
  match (← get).patch address target with
  | .ok state => set state
  | .error fault => throw fault

/-- Puts a body between entering and leaving a scope. -/
def inScope (body : Lower Unit) : Lower Unit := do
  emit .scopeEnter
  let result ← ExceptT.lift body.run
  -- the scope is left even if the body stopped
  emit .scopeExit
  liftExcept result
where
  /-- Stops if the result is a fault. -/
  liftExcept : Except Fault Unit → Lower Unit
    | .ok () => return ()
    | .error fault => throw fault

/-! ## 3. Labels -/

/-- Records the address of a label. A label that is known keeps its address, which is returned. -/
def define (name : String) (address : Nat) : Emit (Option Nat) := do
  match (← get).labels.get? name with
  | some existing => return some existing
  | none =>
    modify fun state => { state with labels := state.labels.insert name address }
    return none

def await (label : String) (address : Nat) : Emit Unit :=
  modify fun state => { state with fixups := state.fixups.push ⟨label, address⟩ }

/-- Links a goto to its label, if the label is known. -/
def link (labels : SortedMap Nat) (fixup : Fixup) : Lower Unit := do
  match labels.get? fixup.label with
  | some target => patch fixup.address target
  | none => report (.labelUndefined fixup.address fixup.label)

/-- The labels that no fixup asks for, by address. -/
def unusedLabels (order : LabelOrder) (labels : SortedMap Nat) (fixups : List Fixup) :
    List (String × Nat) :=
  let used := NameSet.ofNames (fixups.map Fixup.label)
  -- the sort is stable: labels at one address stay in the order in which they were found
  ((order.arrange labels).filter fun label => !used.contains label.1).mergeSort
    fun a b => a.2 ≤ b.2

/-- Links all pending gotos and reports the labels that none of them asked for. -/
def resolve : Lower Unit := do
  let state ← get
  -- no goto is pending any longer, even if linking stops halfway
  set { state with fixups := #[] }
  state.fixups.toList.forM (link state.labels)
  (unusedLabels state.order state.labels state.fixups.toList).forM fun label =>
    report (.labelUnused label.1 label.2)

end TreeScript.Lowering
