import TreeScript.CommandLine
import TreeScript.Compiler
import TreeScript.Document.Report

/-!
# Commands

`Command.run` carries out a command line: it loads the configuration, the grammar and the input,
compiles, and writes the artifact of a compile that succeeded to one place. Files are reached
through `File.Access` only, and what is printed is part of the outcome.
-/

namespace TreeScript

open Lowering (LabelOrder)
open TreeScript.Text (quoted)

namespace Command

/-! ## 1. Outcomes -/

structure Outcome where
  /-- The exit code. -/
  code : UInt8 := 0
  /-- What is printed as the result. -/
  output : String := ""
  /-- What is printed about the run. -/
  messages : String := ""
deriving DecidableEq, Repr

inductive Failure where
  | noWorkingDirectory (cause : File.Error)
  | config (error : ConfigError)
  | grammar (id : String) (error : Grammar.Error)
  | input (path : File.Path) (cause : File.Error)
  | directory (cause : File.Error)
  | write (path : File.Path) (cause : File.Error)
deriving DecidableEq, Repr

namespace Failure

/-- What happened, and what lies behind it. -/
def chain : Failure → List String
  | .noWorkingDirectory cause => [cause.message]
  | .config error => [error.message, error.causeMessage]
  | .grammar id error =>
    ["failed to load grammar " ++ quoted id, error.message] ++ error.causeMessage?.toList
  | .input path cause => [(DocumentError.unreadable path cause).message, cause.message]
  | .directory cause => [cause.message]
  | .write path cause => ["failed to write " ++ path, cause.message]

def outcome (failure : Failure) : Outcome :=
  { code := 1, messages := "error: " ++ ": ".intercalate failure.chain ++ "\n" }

end Failure

/-! ## 2. Artifacts -/

def artifact (executable : Executable) : Format → String
  | .listing => executable.listing
  | .json => executable.jsonText ++ "\n"

/-- The file of an artifact: it is named after the input. -/
def artifactPath (directory input : File.Path) (format : Format) : File.Path :=
  File.Path.join directory ((File.Path.stem? input).getD "out" ++ "." ++ format.extension)

/-- Where an artifact is written, unless it is printed. -/
def outputPath? (invocation : Invocation) (config : Config) (format : Format) :
    Option File.Path :=
  match invocation.output with
  | some path => some path
  | none => config.output.directory.map (artifactPath · invocation.input format)

/-! ## 3. Compiling -/

variable {m : Type → Type} [Monad m] [File.Access m]

def loadConfig (invocation : Invocation) : m (Except Failure Config) := do
  match invocation.config with
  | some path => return (← Config.load path).mapError .config
  | none =>
    match ← File.workingDirectory with
    | .ok directory => return (← Config.discover directory).mapError .config
    | .error cause => return .error (.noWorkingDirectory cause)

def loadGrammar (invocation : Invocation) (config : Config) : m (Except Failure Grammar) := do
  let id := invocation.grammar.getD config.grammarId
  return (← config.resolver.resolve id).mapError (.grammar id)

def readSource (path : File.Path) : m (Except Failure Source) := do
  match ← File.readText path with
  | .ok text => return .ok ⟨text, path⟩
  | .error cause => return .error (.input path cause)

/-- Writes an artifact to a file, in a directory that is made if need be. -/
def writeArtifact (path : File.Path) (text : String) : m (Except Failure Unit) := do
  let made ← match File.Path.parent? path with
    | some parent => File.makeDirectories parent
    | none => pure (.ok ())
  match made with
  | .error cause => return .error (.directory cause)
  | .ok () => return (← File.writeText path text).mapError (.write path)

/-- Puts an artifact in its place; gives what is to be printed. -/
def deliver (invocation : Invocation) (config : Config) (executable : Executable) :
    m (Except Failure String) := do
  -- a check neither writes nor prints
  if invocation.check then return .ok ""
  let format := invocation.format.getD config.output.format
  let text := artifact executable format
  match outputPath? invocation config format with
  | none => return .ok text
  | some path => return (← writeArtifact path text).map fun () => ""

/-- The outcome of a compile that failed. -/
def refusal (color : Bool) (source : Source) (session : Session) : CompileError → Outcome
  | .document error => { code := 1, messages := error.report source }
  | error =>
    { code := 1, messages := session.diagnostics.render color ++ error.message ++ "\n" }

def remarks (color : Bool) (session : Session) : String :=
  if 0 < session.diagnostics.warnings then session.diagnostics.render color else ""

def compile (color : Bool) (invocation : Invocation) (order : LabelOrder) :
    ExceptT Failure m Outcome := do
  let config ← ExceptT.mk (loadConfig invocation)
  let grammar ← ExceptT.mk (loadGrammar invocation config)
  let source ← ExceptT.mk (readSource invocation.input)
  let (result, session) := (({ grammar : Compiler }).compileSource source order).run {}
  match result with
  | .error error => return refusal color source session error
  | .ok executable =>
    match ← ExceptT.lift (deliver invocation config executable) with
    | .ok output => return { output, messages := remarks color session }
    | .error failure =>
      -- the warnings of the compile come before the failure to write
      return { failure.outcome with messages := remarks color session ++ failure.outcome.messages }

/-! ## 4. Command lines -/

def versionText : String := "scriptc 0.1.0\n"

/-- The text that answers a command line that is not well-formed. -/
def usageText : String := "usage: scriptc compile [OPTIONS] <INPUT>\n"

/-- Carries out a command line. Diagnostics have colour on a terminal, unless it is declined. -/
def run (terminal : Bool) (arguments : List String) (order : LabelOrder := .byName) :
    m Outcome := do
  match CommandLine.parse? arguments with
  | none => return { code := 2, messages := usageText }
  | some .version => return { output := versionText }
  | some (.compile invocation) =>
    match ← (compile (terminal && !invocation.noColor) invocation order).run with
    | .ok outcome => return outcome
    | .error failure => return failure.outcome

end Command

end TreeScript
