import TreeScript.Document.Basic
import TreeScript.Lowering.Fault

/-!
# Diagnostics

What a compile has to say. Only errors decide whether it succeeds; warnings are counted, and debug
entries are for information.
-/

namespace TreeScript

open TreeScript.Text (quoted)

/-! ## 1. Entries -/

inductive Severity where
  | debug
  | warning
  | error
deriving DecidableEq, Repr

def Severity.name : Severity → String
  | .debug => "debug"
  | .warning => "warning"
  | .error => "error"

/-- Severities in ascending order. -/
def Severity.rank : Severity → Nat
  | .debug => 0
  | .warning => 1
  | .error => 2

/-- An entry: what was found, and where. -/
inductive Diagnostic where
  -- the document does not conform to the grammar
  | wrongRoot (expected found : String)
  | attributeNotAllowed (trail : Trail) (key tag : String)
  | attributeRequired (trail : Trail) (tag key : String)
  | textNotAllowed (trail : Trail) (tag : String)
  | childNotAllowed (trail : Trail) (child tag : String)
  | unknownElement (trail : Trail) (tag : String)
  -- the parts of the document
  | duplicatePart (trail : Trail) (part : Part)
  | namelessHeader (trail : Trail)
  | badVersion (trail : Trail) (version : String)
  | versionlessHeader (trail : Trail)
  | extraOutput (trail : Trail)
  -- the constructs of the code
  | attributeAbsent (trail : Trail) (tag key : String)
  | unsupportedComparison (trail : Trail) (tag flag : String)
  | labelRedefined (trail : Trail) (name : String) (first : Nat)
  | sourcesIgnored (trail : Trail) (tag key : String) (ignored : List String)
  | sourceAbsent (trail : Trail) (tag : String) (keys : List String)
  | bufferCleared (trail : Trail) (name : String)
  | notParameter (trail : Trail) (tag : String)
  -- the targets of the code
  | labelUndefined (address : Nat) (label : String)
  | labelUnused (label : String) (address : Nat)
  | targetPastEnd (mnemonic : String) (address target : Nat)
  -- the compile as a whole
  | aborted (fault : Lowering.Fault)
  | refused (error : DocumentError)
  | remark (severity : Severity) (text : String)
deriving DecidableEq, Repr

namespace Diagnostic

def severity : Diagnostic → Severity
  | .extraOutput .. | .sourcesIgnored .. | .labelUnused .. => .warning
  | .bufferCleared .. => .debug
  | .remark severity _ => severity
  | _ => .error

def message : Diagnostic → String
  | .wrongRoot expected found =>
    "root element must be " ++ quoted expected ++ ", found " ++ quoted found
  | .attributeNotAllowed trail key tag =>
    trail.text ++ ": attribute " ++ quoted key ++ " is not allowed on <" ++ tag ++ ">"
  | .attributeRequired trail tag key =>
    trail.text ++ ": <" ++ tag ++ "> is missing required attribute " ++ quoted key
  | .textNotAllowed trail tag => trail.text ++ ": <" ++ tag ++ "> does not accept text content"
  | .childNotAllowed trail child tag =>
    trail.text ++ ": <" ++ child ++ "> is not allowed inside <" ++ tag ++ ">"
  | .unknownElement trail tag => trail.text ++ ": unknown element <" ++ tag ++ ">"
  | .duplicatePart trail part => trail.text ++ ": duplicate <" ++ part.tag ++ "> section"
  | .namelessHeader trail => trail.text ++ ": header has no name"
  | .badVersion trail version =>
    trail.text ++ ": version " ++ quoted version ++ " is not of the form major.minor"
  | .versionlessHeader trail => trail.text ++ ": header has no version-number"
  | .extraOutput trail => trail.text ++ ": only the first output declaration is used"
  | .attributeAbsent trail tag key =>
    trail.text ++ ": <" ++ tag ++ "> has no " ++ quoted key ++ " attribute"
  | .unsupportedComparison trail tag flag =>
    trail.text ++ ": <" ++ tag ++ "> does not support the comparison " ++ quoted flag
  | .labelRedefined trail name first =>
    trail.text ++ ": label " ++ quoted name ++ " is already defined at @" ++ first.repr
  | .sourcesIgnored trail tag key ignored =>
    trail.text ++ ": <" ++ tag ++ "> takes its value from " ++ quoted key ++ "; ignoring " ++
      ", ".intercalate ignored
  | .sourceAbsent trail tag keys =>
    trail.text ++ ": <" ++ tag ++ "> needs one of the attributes " ++ ", ".intercalate keys
  | .bufferCleared trail name =>
    trail.text ++ ": empty buffer " ++ quoted name ++ " is cleared"
  | .notParameter trail tag => trail.text ++ ": <" ++ tag ++ "> is not a parameter binding"
  | .labelUndefined address label =>
    "goto at @" ++ address.repr ++ " targets undefined label " ++ quoted label
  | .labelUnused label address =>
    "label " ++ quoted label ++ " at @" ++ address.repr ++ " is never targeted"
  | .targetPastEnd mnemonic address target =>
    mnemonic ++ " at @" ++ address.repr ++ " targets @" ++ target.repr ++
      ", past the end of the code"
  | .aborted fault => fault.message
  | .refused error => error.message
  | .remark _ text => text

end Diagnostic

/-! ## 2. Collections -/

/-- The entries of a compile in the order they were reported, with their counts. -/
structure Diagnostics where
  entries : Array Diagnostic := #[]
  errors : Nat := 0
  warnings : Nat := 0
deriving DecidableEq, Repr

namespace Diagnostics

/-- Adds an entry and counts it. -/
def report (d : Diagnostics) (entry : Diagnostic) : Diagnostics where
  entries := d.entries.push entry
  errors := if entry.severity = .error then d.errors + 1 else d.errors
  warnings := if entry.severity = .warning then d.warnings + 1 else d.warnings

def reset (d : Diagnostics) : Diagnostics :=
  { d with entries := #[], errors := 0, warnings := 0 }

def hasErrors (d : Diagnostics) : Bool :=
  0 < d.errors

/-- The entries of at least a severity. -/
def atLeast (d : Diagnostics) (severity : Severity) : List Diagnostic :=
  d.entries.toList.filter fun entry => severity.rank ≤ entry.severity.rank

/-- A severity as it is shown: with colour, errors are bold red and warnings bold yellow. -/
def shownSeverity (color : Bool) (severity : Severity) : String :=
  let paint (code : String) := "\x1b[1m\x1b[" ++ code ++ "m" ++ severity.name ++ "\x1b[39m\x1b[0m"
  match color, severity with
  | true, .error => paint "31"
  | true, .warning => paint "33"
  | _, _ => severity.name

/-- Warnings and errors, a line each, and a line with their numbers. -/
def render (d : Diagnostics) (color : Bool) : String :=
  let lines := (d.atLeast .warning).map fun entry =>
    shownSeverity color entry.severity ++ ": " ++ entry.message ++ "\n"
  String.join lines ++ d.errors.repr ++ " error(s), " ++ d.warnings.repr ++ " warning(s)\n"

end Diagnostics

abbrev Reporting := StateM Diagnostics

def Reporting.report (entry : Diagnostic) : Reporting Unit :=
  modify fun d => d.report entry

end TreeScript
