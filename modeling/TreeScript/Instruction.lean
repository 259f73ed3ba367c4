import TreeScript.Json.Reader
import TreeScript.Json.Value
import TreeScript.Text.Quoted

/-!
# Instructions

The flat code that scripts are compiled to. An address is the index of an instruction. Conditional
jumps, gotos and asserts are emitted with a pending target that is set once; a jump has its target
from the start.

An instruction is shown as a mnemonic and its operands (`Instruction.text`) and stored as JSON
(`Instruction.toJson`, `Instruction.reader`).
-/

namespace TreeScript

open TreeScript.Text (quoted)

/-! ## 1. Conditions -/

/-- The comparison that a conditional instruction tests. -/
inductive Condition where
  | equal
  | less
  | greater
  | not
  /-- The counter of a loop is used up. -/
  | done
deriving DecidableEq, Repr

namespace Condition

def name : Condition → String
  | .equal => "equal"
  | .less => "less"
  | .greater => "greater"
  | .not => "not"
  | .done => "done"

def ofName? : String → Option Condition
  | "equal" => some .equal
  | "less" => some .less
  | "greater" => some .greater
  | "not" => some .not
  | "done" => some .done
  | _ => none

/-- The condition of a comparison flag. Documents cannot ask for `done`. -/
def ofFlag? : String → Option Condition
  | "equal" => some .equal
  | "less" => some .less
  | "greater" => some .greater
  | "not" => some .not
  | _ => none

end Condition

/-! ## 2. Instructions -/

inductive Instruction where
  | nop
  /-- Evaluates an expression. -/
  | eval (expression : String)
  /-- Stores the current value into a variable that exists. -/
  | store (name : String)
  /-- Declares a variable in the current scope and stores the current value. -/
  | declareNew (name : String)
  | scopeEnter
  | scopeExit
  /-- Gives the reduced contents of a buffer. -/
  | bufferReduce (name : String)
  | mask (name : String)
  /-- Appends the current value to a buffer. -/
  | merge (name : String)
  /-- Moves the current value into the right register. -/
  | moveRight
  /-- Combines the current value with the right register. -/
  | arith (operator : String)
  | loadLiteral (text : String)
  | clearBuffer (name : String)
  /-- Unwinds unconditionally. -/
  | fault
  /-- Fetches a variable. -/
  | fetch (name : String)
  | condJump (condition : Condition) (target : Option Nat)
  | call (name : String)
  | exec (name : String)
  | subroutine (name : String)
  | jump (target : Nat)
  | goto (label : String) (target : Option Nat)
  | assert (condition : Condition) (target : Option Nat)
  | memberCall (method : String)
deriving DecidableEq, Repr

instance : Inhabited Instruction := ⟨.nop⟩

abbrev Code := Array Instruction

namespace Instruction

/-- The target of an instruction, if it has one and it is set. -/
def target? : Instruction → Option Nat
  | .condJump _ target | .goto _ target | .assert _ target => target
  | .jump target => some target
  | _ => none

/-- Whether the target is set after the instruction has been emitted. -/
def isPatchable : Instruction → Bool
  | .condJump .. | .goto .. | .assert .. => true
  | _ => false

/-- The instruction with its target set, if it is patchable. -/
def withTarget (instruction : Instruction) (target : Nat) : Instruction :=
  match instruction with
  | .condJump condition _ => .condJump condition (some target)
  | .goto label _ => .goto label (some target)
  | .assert condition _ => .assert condition (some target)
  | other => other

/-! ## 3. Text -/

def mnemonic : Instruction → String
  | .nop => "nop"
  | .eval _ => "eval"
  | .store _ => "store"
  | .declareNew _ => "new"
  | .scopeEnter => "enter"
  | .scopeExit => "exit"
  | .bufferReduce _ => "reduce"
  | .mask _ => "mask"
  | .merge _ => "merge"
  | .moveRight => "mvright"
  | .arith _ => "arith"
  | .loadLiteral _ => "load"
  | .clearBuffer _ => "clear"
  | .fault => "fault"
  | .fetch _ => "fetch"
  | .condJump .. => "jcond"
  | .call _ => "call"
  | .exec _ => "exec"
  | .subroutine _ => "gosub"
  | .jump _ => "jump"
  | .goto .. => "goto"
  | .assert .. => "assert"
  | .memberCall _ => "mcall"

def addressText (address : Nat) : String :=
  "@" ++ address.repr

/-- A target as an operand; a pending one is a question mark. -/
def targetText : Option Nat → String
  | none => "?"
  | some target => addressText target

/-- The operands of an instruction, if it has any. Literals and expressions are quoted, names are
not. -/
def operands? : Instruction → Option String
  | .nop | .scopeEnter | .scopeExit | .moveRight | .fault => none
  | .loadLiteral text | .eval text => some (quoted text)
  | .store name | .declareNew name | .bufferReduce name | .mask name | .merge name | .arith name
  | .clearBuffer name | .fetch name | .call name | .exec name | .subroutine name
  | .memberCall name => some name
  | .condJump condition target | .assert condition target =>
    some (condition.name ++ " " ++ targetText target)
  | .jump target => some (addressText target)
  | .goto label target => some (label ++ " " ++ targetText target)

/-- The column at which operands start. -/
def operandColumn : Nat := 8

def text (instruction : Instruction) : String :=
  match instruction.operands? with
  | none => instruction.mnemonic
  | some operands =>
    String.ofList (List.rightpad operandColumn ' ' instruction.mnemonic.toList) ++ operands

/-! ## 4. JSON -/

def targetToJson : Option Nat → Json.Value
  | none => .null
  | some target => .natural target

/-- An instruction as JSON: its name, or an object with the name as its only key. -/
def toJson : Instruction → Json.Value
  | .nop => .string "nop"
  | .scopeEnter => .string "scope-enter"
  | .scopeExit => .string "scope-exit"
  | .moveRight => .string "move-right"
  | .fault => .string "fault"
  | .eval s => .object [("eval", .string s)]
  | .store s => .object [("store", .string s)]
  | .declareNew s => .object [("declare-new", .string s)]
  | .bufferReduce s => .object [("buffer-reduce", .string s)]
  | .mask s => .object [("mask", .string s)]
  | .merge s => .object [("merge", .string s)]
  | .arith s => .object [("arith", .string s)]
  | .loadLiteral s => .object [("load-literal", .string s)]
  | .clearBuffer s => .object [("clear-buffer", .string s)]
  | .fetch s => .object [("fetch", .string s)]
  | .call s => .object [("call", .string s)]
  | .exec s => .object [("exec", .string s)]
  | .subroutine s => .object [("subroutine", .string s)]
  | .memberCall s => .object [("member-call", .string s)]
  | .jump target => .object [("jump", .natural target)]
  | .condJump condition target =>
    .object [("cond-jump", .object
      [("condition", .string condition.name), ("target", targetToJson target)])]
  | .goto label target =>
    .object [("goto", .object [("label", .string label), ("target", targetToJson target)])]
  | .assert condition target =>
    .object [("assert", .object
      [("condition", .string condition.name), ("target", targetToJson target)])]

def addressReader : Json.Reader Nat :=
  Json.natural "an address" 0xffffffffffffffff

def conditionReader (depth : Nat) : Json.Reader Condition :=
  Json.variant depth Condition.ofName? fun _ => none

/-- A record of an operand, named `field`, and a target. A target that is left out is pending. -/
def targetRecord {α : Type} (name field : String) (operand : Json.Reader α)
    (make : α → Option Nat → Instruction) :
    Json.Record (Option α × Option (Option Nat)) Instruction where
  name := name
  fields :=
    [ { name := field
        filled := fun s => s.1.isSome
        reader := operand.map fun a s => (some a, s.2)
        skippable := false },
      { name := "target"
        filled := fun s => s.2.isSome
        reader := (Json.optional addressReader).map fun target s => (s.1, some target)
        skippable := false } ]
  initial := (none, none)
  finish s :=
    match s.1 with
    | none => .error (.missingField field)
    | some a => .ok (make a (s.2.getD none))

/-- The instructions without operands, by name. -/
def plain? : String → Option Instruction
  | "nop" => some .nop
  | "scope-enter" => some .scopeEnter
  | "scope-exit" => some .scopeExit
  | "move-right" => some .moveRight
  | "fault" => some .fault
  | _ => none

/-- The reader of the operands of an instruction, by name. -/
def payload? (depth : Nat) : String → Option (Json.Reader Instruction)
  | "eval" => some (Json.string.map .eval)
  | "store" => some (Json.string.map .store)
  | "declare-new" => some (Json.string.map .declareNew)
  | "buffer-reduce" => some (Json.string.map .bufferReduce)
  | "mask" => some (Json.string.map .mask)
  | "merge" => some (Json.string.map .merge)
  | "arith" => some (Json.string.map .arith)
  | "load-literal" => some (Json.string.map .loadLiteral)
  | "clear-buffer" => some (Json.string.map .clearBuffer)
  | "fetch" => some (Json.string.map .fetch)
  | "call" => some (Json.string.map .call)
  | "exec" => some (Json.string.map .exec)
  | "subroutine" => some (Json.string.map .subroutine)
  | "member-call" => some (Json.string.map .memberCall)
  | "jump" => some (addressReader.map .jump)
  | "cond-jump" =>
    some (Json.record depth
      (targetRecord "a conditional jump" "condition" (conditionReader (depth - 1)) .condJump))
  | "goto" => some (Json.record depth (targetRecord "a goto" "label" Json.string .goto))
  | "assert" =>
    some (Json.record depth
      (targetRecord "an assert" "condition" (conditionReader (depth - 1)) .assert))
  | _ => none

def reader (depth : Nat) : Json.Reader Instruction :=
  Json.variant depth plain? (payload? (depth - 1))

def read (text : List Char) : Except Json.Fault Instruction :=
  Json.read (reader Json.maxDepth) text

end Instruction

end TreeScript
