import TreeScript.Grammar.Resolver

/-!
# Configuration

A configuration file names the grammar to compile against, the files of grammars, and how and where
artifacts are written. Its paths are relative to the directory it lies in. Without a file, the
defaults hold.
-/

namespace TreeScript

open TreeScript.Text (quoted)

/-! ## 1. Configurations -/

inductive Format where
  | listing
  | json
deriving DecidableEq, Repr

namespace Format

def name : Format → String
  | .listing => "listing"
  | .json => "json"

def ofName? : String → Option Format
  | "listing" => some .listing
  | "json" => some .json
  | _ => none

def extension : Format → String
  | .listing => "lst"
  | .json => "json"

end Format

structure OutputSettings where
  format : Format := .listing
  /-- The directory for artifacts; without one, they are printed. -/
  directory : Option File.Path := none
deriving DecidableEq, Repr

structure Config where
  /-- The name of the grammar to compile against. -/
  grammar : Option String := none
  /-- The files of grammars by name. -/
  grammars : SortedMap File.Path := ∅
  output : OutputSettings := {}

inductive ConfigError where
  | unreadable (path : File.Path) (cause : File.Error)
  /-- The text is not TOML, or not a configuration. -/
  | unparsable (path : File.Path)
deriving DecidableEq, Repr

namespace ConfigError

def message : ConfigError → String
  | .unreadable path cause => "failed to read config " ++ quoted path ++ ": " ++ cause.message
  | .unparsable path => "failed to parse config " ++ quoted path ++ ": " ++ Grammar.unparsableText

/-- The wording of what lies behind an error. -/
def causeMessage : ConfigError → String
  | .unreadable _ cause => cause.message
  | .unparsable _ => Grammar.unparsableText

end ConfigError

/-! ## 2. Reading -/

def OutputSettings.of? (value : Toml.Value) : Option OutputSettings := do
  let fields ← Toml.Fields.of? ["format", "directory"] value
  return {
    format := ← fields.orElse? "format" .listing (Toml.Value.choice? Format.ofName?)
    directory := ← fields.orElse? "directory" none fun v => v.string?.map some }

namespace Config

def of? (entries : Toml.Entries) : Option Config := do
  let fields := Toml.Fields.ofEntries entries
  return {
    grammar := ← fields.orElse? "grammar" none fun v => v.string?.map some
    grammars := ← fields.orElse? "grammars" ∅ (Toml.Value.mapOf? Toml.Value.string?)
    output := ← fields.orElse? "output" {} OutputSettings.of? }

/-- The configuration with its paths taken relative to a directory. -/
def rebase (config : Config) (base : File.Path) : Config :=
  { config with
    grammars := config.grammars.map (File.Path.join base)
    output := { config.output with
      directory := config.output.directory.map (File.Path.join base) } }

def parse (path : File.Path) (text : String) : Except ConfigError Config :=
  match (Toml.read text.toList).bind of? with
  | none => .error (.unparsable path)
  -- paths are meant from where the file is
  | some config => .ok (config.rebase ((File.Path.parent? path).getD "."))

def grammarId (config : Config) : String :=
  config.grammar.getD Grammar.standardId

def resolver (config : Config) : Grammar.Resolver :=
  ⟨config.grammars⟩

/-! ## 3. Files -/

variable {m : Type → Type} [Monad m] [File.Access m]

def load (path : File.Path) : m (Except ConfigError Config) := do
  match ← File.readText path with
  | .ok text => return parse path text
  | .error cause => return .error (.unreadable path cause)

def fileName : String := "scriptc.toml"

/-- Reads the configuration file of a directory, if it has one. -/
def discover (directory : File.Path) : m (Except ConfigError Config) := do
  let path := File.Path.join directory fileName
  -- without a file the defaults hold
  if ← File.isFile path then load path else return .ok {}

end Config

end TreeScript
