import TreeScript.Config

/-!
# Command lines

What the arguments of a command line ask for. An option has a long and a short name and a value,
which is the next argument or attached to the name; a flag has a long name only. Each is given at
most once, in any order, and a double hyphen ends them.
-/

namespace TreeScript

/-! ## 1. Requests -/

structure Invocation where
  input : File.Path
  config : Option File.Path := none
  grammar : Option String := none
  format : Option Format := none
  output : Option File.Path := none
  /-- Nothing is written. -/
  check : Bool := false
  /-- Diagnostics have no colour. -/
  noColor : Bool := false
deriving DecidableEq, Repr

inductive Request where
  | version
  | compile (invocation : Invocation)
deriving DecidableEq, Repr

namespace CommandLine

/-! ## 2. Options -/

/-- The options, which have a value. -/
inductive Setting where
  | config
  | grammar
  | format
  | output
deriving DecidableEq, Repr

/-- The flags, which have none. -/
inductive Switch where
  | check
  | noColor
deriving DecidableEq, Repr

def Setting.ofName? : String → Option Setting
  | "config" => some .config
  | "grammar" => some .grammar
  | "format" => some .format
  | "output" => some .output
  | _ => none

def Setting.ofLetter? : Char → Option Setting
  | 'c' => some .config
  | 'g' => some .grammar
  | 'f' => some .format
  | 'o' => some .output
  | _ => none

def Switch.ofName? : String → Option Switch
  | "check" => some .check
  | "no-color" => some .noColor
  | _ => none

/-! ## 3. Arguments -/

inductive Argument where
  /-- The double hyphen. -/
  | separator
  /-- An option with a value attached. -/
  | attached (setting : Setting) (value : String)
  /-- An option whose value is the next argument. -/
  | pending (setting : Setting)
  | switch (switch : Switch)
  | positional (value : String)
  | unknown
deriving DecidableEq, Repr

/-- An argument with a long name, behind its hyphens. -/
def Argument.ofLong (cs : List Char) : Argument :=
  let name := String.ofList (cs.takeWhile (· ≠ '='))
  match Setting.ofName? name, Switch.ofName? name, cs.dropWhile (· ≠ '=') with
  | some setting, _, [] => .pending setting
  | some setting, _, _ :: value => .attached setting (String.ofList value)
  | none, some s, [] => .switch s
  | _, _, _ => .unknown

/-- An argument with a short name, behind its hyphen. -/
def Argument.ofShort (letter : Char) (cs : List Char) : Argument :=
  match Setting.ofLetter? letter, cs with
  | none, _ => .unknown
  | some setting, [] => .pending setting
  -- an equals sign is no part of the value
  | some setting, '=' :: value => .attached setting (String.ofList value)
  | some setting, value => .attached setting (String.ofList value)

def Argument.of (argument : String) : Argument :=
  match argument.toList with
  | ['-', '-'] => .separator
  | '-' :: '-' :: cs => .ofLong cs
  | '-' :: letter :: cs => .ofShort letter cs
  -- a hyphen alone is a value too
  | _ => .positional argument

/-! ## 4. Invocations -/

/-- What has been read of an invocation so far. -/
structure Draft where
  input : Option File.Path := none
  config : Option File.Path := none
  grammar : Option String := none
  format : Option Format := none
  output : Option File.Path := none
  check : Bool := false
  noColor : Bool := false

namespace Draft

/-- Gives an option its value. No option is given twice, and no path is empty. -/
def set? (draft : Draft) (setting : Setting) (value : String) : Option Draft :=
  match setting with
  | .config =>
    if draft.config.isSome ∨ value = "" then none else some { draft with config := some value }
  | .grammar => if draft.grammar.isSome then none else some { draft with grammar := some value }
  | .format =>
    match draft.format, Format.ofName? value with
    | none, some format => some { draft with format := some format }
    | _, _ => none
  | .output =>
    if draft.output.isSome ∨ value = "" then none else some { draft with output := some value }

/-- Sets a flag. No flag is set twice. -/
def raise? (draft : Draft) : Switch → Option Draft
  | .check => if draft.check then none else some { draft with check := true }
  | .noColor => if draft.noColor then none else some { draft with noColor := true }

/-- Takes the input. There is one input. -/
def take? (draft : Draft) (value : String) : Option Draft :=
  if draft.input.isSome ∨ value = "" then none else some { draft with input := some value }

def finish? (draft : Draft) : Option Invocation :=
  draft.input.map fun input =>
    { input, config := draft.config, grammar := draft.grammar, format := draft.format,
      output := draft.output, check := draft.check, noColor := draft.noColor }

def read? (draft : Draft) : List String → Option Draft
  | [] => some draft
  | argument :: rest =>
    match Argument.of argument with
    -- no option stands behind a separator
    | .separator => rest.foldlM take? draft
    | .attached setting value => do (← draft.set? setting value).read? rest
    | .switch s => do (← draft.raise? s).read? rest
    | .positional value => do (← draft.take? value).read? rest
    | .unknown => none
    | .pending setting =>
      match rest with
      | [] => none
      | value :: rest =>
        match Argument.of value with
        -- the value of an option does not look like an option
        | .positional value => do (← draft.set? setting value).read? rest
        | _ => none

end Draft

/-! ## 5. Command lines -/

def asksVersion (argument : String) : Bool :=
  -- behind a short flag there may be other letters
  argument = "--version" || ['-', 'V'].isPrefixOf argument.toList

/-- The request of a command line; none if it is not well-formed. -/
def parse? : List String → Option Request
  | [] => none
  | argument :: rest =>
    if asksVersion argument then some .version
    else if argument = "compile" then (Draft.read? {} rest).bind fun draft =>
      draft.finish?.map .compile
    else none

end CommandLine

end TreeScript
