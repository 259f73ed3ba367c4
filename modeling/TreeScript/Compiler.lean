import TreeScript.Grammar.Validation
import TreeScript.Lowering.Header
import TreeScript.Lowering.Step

/-!
# Compilers

A compiler has a grammar and a strategy. A compile validates a document, takes its header and its
code, lowers the code and links it; it gives an executable only if nothing was reported as an
error. The session remembers the diagnostics and the outcome of the last compile.
-/

namespace TreeScript

open Lowering (LabelOrder Lower Strategy)

/-! ## 1. Compilers and sessions -/

structure Compiler where
  grammar : Grammar
  strategy : Strategy := Strategy.standard

inductive Stage where
  /-- Nothing has been compiled yet. -/
  | ready
  /-- The last compile succeeded. -/
  | done
  /-- The last compile failed. -/
  | failed
deriving DecidableEq, Repr

/-- The outcome of the last compile. -/
structure Session where
  diagnostics : Diagnostics := {}
  stage : Stage := .ready
deriving DecidableEq, Repr

inductive CompileError where
  /-- Errors were reported. -/
  | failed (errors warnings : Nat)
  /-- Lowering stopped. -/
  | fatal (fault : Lowering.Fault)
  /-- There was no document to compile. -/
  | document (error : DocumentError)
deriving DecidableEq, Repr

def CompileError.message : CompileError → String
  | .failed errors warnings =>
    "compile failed with " ++ errors.repr ++ " error(s) and " ++ warnings.repr ++ " warning(s)"
  | .fatal fault => "compile aborted: " ++ fault.message
  | .document error => error.message

namespace Compiler

/-! ## 2. The parts of a compile -/

/-- A part of a compile: it reports diagnostics, and may end the compile. -/
abbrev Compiling := ExceptT CompileError Reporting

/-- Ends a compile because of the errors that were reported. -/
def fail {α : Type} : Compiling α := do
  let diagnostics ← get
  throw (.failed diagnostics.errors diagnostics.warnings)

/-- The parts of a kind behind the first one. -/
def extraParts (root : Node) (part : Part) : List Diagnostic :=
  ((root.partsOf part).drop 1).map fun extra => .duplicatePart extra.trail part

/-- The header and the code of a document, each of which is there once. -/
def partsOf (root : Node) : Compiling (Node × Node) := do
  let extra := extraParts root .header ++ extraParts root .code
  extra.forM fun entry => Reporting.report entry
  -- a part too many counts before one that is missing
  if extra ≠ [] then fail
  match root.partsOf .header, root.partsOf .code with
  | [], _ => throw (.fatal (.missingPart .header))
  | _, [] => throw (.fatal (.missingPart .code))
  | header :: _, code :: _ => return (header, code)

def lowerCode (strategy : Strategy) (order : LabelOrder) (code : Node) : Compiling Code := do
  let lowering : Lower Unit := do
    strategy code
    -- jumps past the last construct lead here
    Lowering.emit .nop
    Lowering.resolve
  let (result, state) := lowering.run { order, diagnostics := ← get }
  -- what was reported before a fault stays reported
  set state.diagnostics
  match result with
  | .ok () => return state.code
  | .error fault => throw (.fatal fault)

/-- The instructions whose targets lie past the end of the code. -/
def strayTargets (code : Code) : List Diagnostic :=
  code.toList.zipIdx.filterMap fun (instruction, address) =>
    match instruction.target? with
    | some target =>
      if code.size ≤ target then some (.targetPastEnd instruction.mnemonic address target)
      else none
    | none => none

def assemble (compiler : Compiler) (document : Document) (order : LabelOrder) :
    Compiling Executable := do
  match ← compiler.grammar.validate document with
  | none => fail
  | some root =>
    let (headerNode, codeNode) ← partsOf root
    let header ← Header.ofNode headerNode
    let code ← lowerCode compiler.strategy order codeNode
    (strayTargets code).forM fun entry => Reporting.report entry
    -- errors of the header and of lowering are fatal only now, so that all of them are reported
    if (← get).hasErrors then fail
    return ⟨header, code⟩

/-! ## 3. Compiles -/

/-- Compiles a document. The entries of an earlier compile are removed first. -/
def compile (compiler : Compiler) (document : Document) (order : LabelOrder := .byName) :
    StateM Session (Except CompileError Executable) := do
  let session ← get
  let (result, diagnostics) := (compiler.assemble document order).run session.diagnostics.reset
  match result with
  | .ok executable =>
    set { diagnostics, stage := .done : Session }
    return .ok executable
  | .error (.fatal fault) =>
    set { diagnostics := diagnostics.report (.aborted fault), stage := .failed : Session }
    return .error (.fatal fault)
  | .error error =>
    set { diagnostics, stage := .failed : Session }
    return .error error

def compileSource (compiler : Compiler) (source : Source) (order : LabelOrder := .byName) :
    StateM Session (Except CompileError Executable) := do
  match Document.parse source with
  | .ok document => compiler.compile document order
  | .error error =>
    let session ← get
    let diagnostics := session.diagnostics.reset.report (.refused error)
    set { diagnostics, stage := .failed : Session }
    return .error (.document error)

end Compiler

end TreeScript
