import TreeScript.Command
import TreeScript.Proofs.Files

/-!
# Where artifacts go

A command line that asks for a compile reads what it needs, and writes at most one file. The tree
is left alone unless the compile succeeds; then the artifact goes to one place, and the other files
keep their contents.
-/

namespace TreeScript

open File (Along Tree)
open File.Tree (Grows Keeps Replaces)
open Lowering (LabelOrder)

/-! ## 1. Reading -/

theorem Config.load_along (path : File.Path) :
    Along Eq (Config.load path : StateM Tree (Except ConfigError Config)) := by
  refine Along.bind .trans (fun _ => rfl) fun contents => ?_
  cases contents <;> exact fun _ => rfl

theorem Config.discover_along (directory : File.Path) :
    Along Eq (Config.discover directory : StateM Tree (Except ConfigError Config)) := by
  refine Along.bind .trans (fun _ => rfl) fun found => ?_
  cases found
  · exact fun _ => rfl
  · exact Config.load_along _

theorem Grammar.Resolver.resolve_along (resolver : Grammar.Resolver) (id : String) :
    Along Eq (resolver.resolve id : StateM Tree (Except Grammar.Error Grammar)) := by
  rw [Grammar.Resolver.resolve]
  split
  · exact fun _ => rfl
  · refine Along.bind .trans (fun _ => rfl) fun contents => ?_
    cases contents <;> exact fun _ => rfl

namespace Command

/-- The configuration that an invocation names, or else the one of the working directory. -/
def configIn (tree : Tree) (invocation : Invocation) : Except ConfigError Config :=
  ((invocation.config.elim (Config.discover (Tree.pathOf tree.home)) Config.load :
    StateM Tree (Except ConfigError Config)) tree).1

/-- The grammar that an invocation names, or else the one of the configuration. -/
def grammarIn (tree : Tree) (invocation : Invocation) (config : Config) :
    Except Grammar.Error Grammar :=
  ((config.resolver.resolve (invocation.grammar.getD config.grammarId) :
    StateM Tree (Except Grammar.Error Grammar)) tree).1

variable {tree : Tree} {invocation : Invocation} {config : Config}

theorem loadConfig_apply : (loadConfig invocation : StateM Tree (Except Failure Config)) tree =
    ((configIn tree invocation).mapError .config, tree) := by
  rw [loadConfig, configIn]
  cases invocation.config with
  | some path => exact Prod.ext rfl (Config.load_along path tree).symm
  | none => exact Prod.ext rfl (Config.discover_along (Tree.pathOf tree.home) tree).symm

theorem loadGrammar_apply :
    (loadGrammar invocation config : StateM Tree (Except Failure Grammar)) tree =
      ((grammarIn tree invocation config).mapError
        (.grammar (invocation.grammar.getD config.grammarId)), tree) :=
  Prod.ext rfl (config.resolver.resolve_along (invocation.grammar.getD config.grammarId) tree).symm

theorem readSource_apply (path : File.Path) :
    (readSource path : StateM Tree (Except Failure Source)) tree =
      (((tree.readText path).map (Source.mk · path)).mapError (.input path), tree) := by
  rw [readSource, Stateful.bind_apply, File.readText_apply]
  cases tree.readText path <;> rfl

/-! ## 2. Compiling -/

/-- What an invocation reads from a tree: a configuration, a grammar and the text of its input. -/
structure Loads (tree : Tree) (invocation : Invocation) (config : Config) (grammar : Grammar)
    (text : String) : Prop where
  configured : configIn tree invocation = .ok config
  resolved : grammarIn tree invocation config = .ok grammar
  read : tree.readText invocation.input = .ok text

/-- The result of compiling a text against a grammar, and the session that is left. -/
def compiled (grammar : Grammar) (order : LabelOrder) (source : Source) :
    Except CompileError Executable × Session :=
  (({ grammar : Compiler }).compileSource source order).run {}

theorem run_mk_bind_of_ok {σ ε α β : Type} {x : StateM σ (Except ε α)} {s s' : σ} {a : α}
    (h : x s = (.ok a, s')) (f : α → ExceptT ε (StateM σ) β) :
    (ExceptT.mk x >>= f).run s = (f a).run s' := by
  rw [Stoppable.run_bind, ExceptT.run_mk, h]

theorem run_mk_bind_of_error {σ ε α β : Type} {x : StateM σ (Except ε α)} {s s' : σ} {fault : ε}
    (h : x s = (.error fault, s')) (f : α → ExceptT ε (StateM σ) β) :
    (ExceptT.mk x >>= f).run s = (.error fault, s') := by
  rw [Stoppable.run_bind, ExceptT.run_mk, h]

/-- The outcome of a compile that succeeded: what is to be printed, or why the artifact could not
be put in its place. -/
def settled (remarks : String) : Except Failure String → Outcome
  | .ok output => { output, messages := remarks }
  | .error failure => { failure.outcome with messages := remarks ++ failure.outcome.messages }

variable {grammar : Grammar} {order : LabelOrder} {text : String} (color : Bool)

theorem compile_of_error (h : Loads tree invocation config grammar text) {error : CompileError}
    {session : Session}
    (hcompiled : compiled grammar order ⟨text, invocation.input⟩ = (.error error, session)) :
    (compile color invocation order : ExceptT Failure (StateM Tree) Outcome).run tree =
      (.ok (refusal color ⟨text, invocation.input⟩ session error), tree) := by
  rw [compile, run_mk_bind_of_ok (by rw [loadConfig_apply, h.configured]; rfl),
    run_mk_bind_of_ok (by rw [loadGrammar_apply, h.resolved]; rfl),
    run_mk_bind_of_ok (by rw [readSource_apply, h.read]; rfl)]
  rw [compiled] at hcompiled
  rw [hcompiled]
  rfl

theorem compile_of_ok (h : Loads tree invocation config grammar text) {executable : Executable}
    {session : Session}
    (hcompiled : compiled grammar order ⟨text, invocation.input⟩ = (.ok executable, session))
    {result : Except Failure String} {after : Tree}
    (hdeliver : (deliver invocation config executable : StateM Tree (Except Failure String)) tree =
      (result, after)) :
    (compile color invocation order : ExceptT Failure (StateM Tree) Outcome).run tree =
      (.ok (settled (remarks color session) result), after) := by
  rw [compile, run_mk_bind_of_ok (by rw [loadConfig_apply, h.configured]; rfl),
    run_mk_bind_of_ok (by rw [loadGrammar_apply, h.resolved]; rfl),
    run_mk_bind_of_ok (by rw [readSource_apply, h.read]; rfl)]
  rw [compiled] at hcompiled
  rw [hcompiled]
  dsimp only
  rw [Stoppable.run_bind, Stoppable.run_lift, hdeliver]
  cases result <;> rfl

/-- A command line that cannot be carried out stops before anything is written. -/
theorem compile_of_not_loads
    (h : ∀ config grammar text, ¬ Loads tree invocation config grammar text) :
    ∃ failure, (compile color invocation order : ExceptT Failure (StateM Tree) Outcome).run tree =
      (.error failure, tree) := by
  rw [compile]
  cases hconfig : configIn tree invocation with
  | error error =>
    exact ⟨_, run_mk_bind_of_error (by rw [loadConfig_apply, hconfig]; rfl) _⟩
  | ok config =>
    rw [run_mk_bind_of_ok (by rw [loadConfig_apply, hconfig]; rfl)]
    cases hgrammar : grammarIn tree invocation config with
    | error error =>
      exact ⟨_, run_mk_bind_of_error (by rw [loadGrammar_apply, hgrammar]; rfl) _⟩
    | ok grammar =>
      rw [run_mk_bind_of_ok (by rw [loadGrammar_apply, hgrammar]; rfl)]
      cases htext : tree.readText invocation.input with
      | error error =>
        exact ⟨_, run_mk_bind_of_error (by rw [readSource_apply, htext]; rfl) _⟩
      | ok text => exact absurd ⟨hconfig, hgrammar, htext⟩ (h config grammar text)

theorem run_of_ok {terminal : Bool} {arguments : List String} {outcome : Outcome} {after : Tree}
    (hrequest : CommandLine.parse? arguments = some (.compile invocation))
    (h : (compile (terminal && !invocation.noColor) invocation order :
      ExceptT Failure (StateM Tree) Outcome).run tree = (.ok outcome, after)) :
    (run terminal arguments order : StateM Tree Outcome) tree = (outcome, after) := by
  rw [run, hrequest]
  dsimp only
  rw [Stateful.bind_apply, h]
  rfl

theorem run_of_error {terminal : Bool} {arguments : List String} {failure : Failure} {after : Tree}
    (hrequest : CommandLine.parse? arguments = some (.compile invocation))
    (h : (compile (terminal && !invocation.noColor) invocation order :
      ExceptT Failure (StateM Tree) Outcome).run tree = (.error failure, after)) :
    (run terminal arguments order : StateM Tree Outcome) tree = (failure.outcome, after) := by
  rw [run, hrequest]
  dsimp only
  rw [Stateful.bind_apply, h]
  rfl

theorem output_refusal (source : Source) (session : Session) (error : CompileError) :
    (refusal color source session error).output = "" := by
  cases error <;> rfl

/-! ## 3. Writing -/

/-- Makes the directories that a path lies in. -/
def prepare (path : File.Path) : StateM Tree (Except File.Error Unit) :=
  (File.Path.parent? path).elim (pure (.ok ())) File.makeDirectories

theorem prepare_along (path : File.Path) : Along Keeps (prepare path) := by
  rw [prepare]
  cases File.Path.parent? path with
  | none => exact fun tree => .refl tree
  | some parent => exact File.makeDirectoriesIn_along (File.Path.ancestors parent)

theorem writeArtifact_of_prepared {path : File.Path} {made after : Tree}
    {result : Except File.Error Unit} (h : prepare path tree = (.ok (), made))
    (hwrite : (File.writeText path text : StateM Tree (Except File.Error Unit)) made =
      (result, after)) :
    (writeArtifact path text : StateM Tree (Except Failure Unit)) tree =
      (result.mapError (.write path), after) := by
  rw [prepare] at h
  rw [writeArtifact]
  cases hparent : File.Path.parent? path with
  | none =>
    rw [hparent] at h
    cases h
    dsimp only
    rw [Stateful.bind_apply, Stateful.pure_apply]
    dsimp only
    rw [Stateful.bind_apply, hwrite]
    rfl
  | some parent =>
    rw [hparent, Option.elim_some] at h
    dsimp only
    rw [Stateful.bind_apply, h]
    dsimp only
    rw [Stateful.bind_apply, hwrite]
    rfl

theorem writeArtifact_of_unprepared {path : File.Path} {made : Tree} {cause : File.Error}
    (h : prepare path tree = (.error cause, made)) (text : String) :
    (writeArtifact path text : StateM Tree (Except Failure Unit)) tree =
      (.error (.directory cause), made) := by
  rw [prepare] at h
  rw [writeArtifact]
  cases hparent : File.Path.parent? path with
  | none =>
    rw [hparent] at h
    cases h
  | some parent =>
    rw [hparent, Option.elim_some] at h
    dsimp only
    rw [Stateful.bind_apply, h]
    rfl

/-- A run that puts a text at a path. It succeeds just when the directories that the path lies in
can be made and the text can be written, and then one file has changed; otherwise none has. No
directory is lost. -/
structure Puts (tree : Tree) (path : File.Path) (text : String) (outcome : Outcome)
    (after : Tree) : Prop where
  silent : outcome.output = ""
  succeeds : outcome.code = 0 ↔
    ∃ made written, prepare path tree = (.ok (), made) ∧ made.writeText path text = .ok written
  written : outcome.code = 0 →
    ∃ place, after.locate path = .ok place ∧ Replaces tree after place text
  failed : outcome.code ≠ 0 → after.files = tree.files
  grows : Grows tree after

theorem code_settled_error (remarks : String) (failure : Failure) :
    (settled remarks (.error failure)).code ≠ 0 := by
  show (1 : UInt8) ≠ 0
  decide

theorem Puts.of_failure {path : File.Path} {after : Tree} (hkeeps : Keeps tree after)
    (hfails : ∀ made written, prepare path tree = (.ok (), made) →
      made.writeText path text ≠ .ok written) (remarks : String) (failure : Failure) :
    Puts tree path text (settled remarks (.error failure)) after where
  silent := rfl
  succeeds := by
    refine ⟨fun hcode => absurd hcode (code_settled_error remarks failure), ?_⟩
    rintro ⟨made, written, hmade, hwritten⟩
    exact absurd hwritten (hfails made written hmade)
  written hcode := absurd hcode (code_settled_error remarks failure)
  failed _ := hkeeps.files
  grows := hkeeps.toGrows

theorem Puts.of_writeText {path : File.Path} {made after : Tree}
    (hmade : prepare path tree = (.ok (), made)) (hwrite : made.writeText path text = .ok after)
    (remarks : String) : Puts tree path text (settled remarks (.ok "")) after := by
  have hkeeps := prepare_along path tree
  rw [hmade] at hkeeps
  obtain ⟨hgrows, place, hplace, hreplaces⟩ := File.Tree.writeText_replaces hwrite
  refine ⟨rfl, ⟨fun _ => ⟨made, after, hmade, hwrite⟩, fun _ => rfl⟩, fun _ => ?_,
    fun hcode => absurd rfl hcode, hkeeps.toGrows.trans hgrows⟩
  -- the others are compared with what they held before directories were made
  refine ⟨place, hplace, hreplaces.written, fun other hother => ?_⟩
  rw [hreplaces.others other hother, hkeeps.contents?]

theorem puts_writeArtifact {path : File.Path} {result : Except Failure Unit} {after : Tree}
    (h : (writeArtifact path text : StateM Tree (Except Failure Unit)) tree = (result, after))
    (remarks : String) : Puts tree path text (settled remarks (result.map fun _ => "")) after := by
  have hkeeps := prepare_along path tree
  rcases hmade : prepare path tree with ⟨cause | ⟨⟩, made⟩ <;> rw [hmade] at hkeeps
  · rw [writeArtifact_of_unprepared hmade] at h
    cases h
    refine .of_failure hkeeps (fun _ _ hprepared => ?_) remarks (.directory cause)
    rw [hmade] at hprepared
    cases hprepared
  · cases hwrite : made.writeText path text with
    | error cause =>
      rw [writeArtifact_of_prepared hmade (File.Tree.change_of_error hwrite)] at h
      cases h
      refine .of_failure hkeeps (fun _ _ hprepared => ?_) remarks (.write path cause)
      rw [hmade] at hprepared
      cases hprepared
      rw [hwrite]
      exact nofun
    | ok written =>
      rw [writeArtifact_of_prepared hmade (File.Tree.change_of_ok hwrite)] at h
      cases h
      exact .of_writeText hmade hwrite remarks

/-! ## 4. Delivering -/

/-- An invocation whose input compiles. -/
def Compiles (tree : Tree) (invocation : Invocation) (order : LabelOrder) (config : Config)
    (executable : Executable) : Prop :=
  ∃ grammar text, Loads tree invocation config grammar text ∧
    (compiled grammar order ⟨text, invocation.input⟩).1 = .ok executable

/-- The format that an invocation asks for, or else the configured one. -/
def formatFor (invocation : Invocation) (config : Config) : Format :=
  invocation.format.getD config.output.format

/-- The text of an executable: its listing, or its JSON text with a line feed behind it. -/
structure Renders (executable : Executable) (format : Format) (text : String) : Prop where
  listing : format = .listing → text = executable.listing
  json : format = .json → text = executable.jsonText ++ "\n"

theorem artifact_renders (executable : Executable) (format : Format) :
    Renders executable format (artifact executable format) := by
  cases format with
  | listing => exact ⟨fun _ => rfl, nofun⟩
  | json => exact ⟨nofun, fun _ => rfl⟩

/-- The name of an artifact's file: the stem of the input's name, and the extension of the
format. -/
def artifactName (input : File.Path) (format : Format) : String :=
  (File.Path.stem? input).getD "out" ++ "." ++ format.extension

/-- Where the artifact of a compile that succeeded has gone: to the path that the invocation gives,
or else to a file of the configured directory, or else it was printed. -/
structure Delivers (tree : Tree) (invocation : Invocation) (config : Config) (text : String)
    (outcome : Outcome) (after : Tree) : Prop where
  toPath : ∀ path, invocation.output = some path → Puts tree path text outcome after
  toDirectory : invocation.output = none → ∀ directory, config.output.directory = some directory →
    Puts tree (artifactPath directory invocation.input (formatFor invocation config)) text
        outcome after ∧
      (outcome.code = 0 → ∃ base, after.placeOf directory = .ok base ∧
        Replaces tree after
          (base ++ [artifactName invocation.input (formatFor invocation config)]) text)
  printed : invocation.output = none → config.output.directory = none →
    after = tree ∧ outcome.output = text ∧ outcome.code = 0

theorem notMem_artifactName (input : File.Path) (format : Format) :
    '/' ∉ (artifactName input format).toList := by
  have hstem : '/' ∉ ((File.Path.stem? input).getD "out").toList := by
    cases hstem : File.Path.stem? input with
    | none => decide
    | some stem => exact File.Path.notMem_of_stem? hstem
  have hrest : '/' ∉ format.extension.toList := by
    cases format <;> decide
  rw [artifactName, String.toList_append, String.toList_append, List.mem_append, List.mem_append]
  rintro ((h | h) | h)
  · exact hstem h
  · exact absurd h (by decide)
  · exact hrest h

theorem artifactName_ne (input : File.Path) (format : Format) {name : String}
    (h : name.length < 4) : artifactName input format ≠ name := by
  rintro rfl
  have hextension : 3 ≤ format.extension.length := by
    cases format <;> decide
  have hdot : ".".length = 1 := rfl
  rw [artifactName, String.length_append, String.length_append] at h
  omega

/-- An artifact lies in the configured directory, under its own name. -/
theorem locate_artifactPath {directory input : File.Path} {format : Format}
    {place : File.Location} (h : tree.locate (artifactPath directory input format) = .ok place) :
    ∃ base, tree.placeOf directory = .ok base ∧ place = base ++ [artifactName input format] := by
  refine File.Tree.locate_join h (notMem_artifactName input format) ?_
    (artifactName_ne input format (by decide))
  rw [File.Path.isSilent, Bool.or_eq_true, decide_eq_true_eq, decide_eq_true_eq, not_or]
  exact ⟨artifactName_ne input format (by decide), artifactName_ne input format (by decide)⟩

section

variable {executable : Executable}

theorem deliver_of_check (h : invocation.check = true) :
    (deliver invocation config executable : StateM Tree (Except Failure String)) tree =
      (.ok "", tree) := by
  rw [deliver, if_pos h]
  rfl

theorem deliver_of_none (hcheck : invocation.check = false)
    (h : outputPath? invocation config (formatFor invocation config) = none) :
    (deliver invocation config executable : StateM Tree (Except Failure String)) tree =
      (.ok (artifact executable (formatFor invocation config)), tree) := by
  rw [formatFor] at h
  rw [deliver, if_neg (by rw [hcheck]; exact Bool.false_ne_true), h]
  rfl

theorem deliver_of_path {path : File.Path} (hcheck : invocation.check = false)
    (h : outputPath? invocation config (formatFor invocation config) = some path)
    {result : Except Failure Unit} {after : Tree}
    (hwrite : (writeArtifact path (artifact executable (formatFor invocation config)) :
      StateM Tree (Except Failure Unit)) tree = (result, after)) :
    (deliver invocation config executable : StateM Tree (Except Failure String)) tree =
      (result.map fun _ => "", after) := by
  rw [formatFor] at h hwrite
  rw [deliver, if_neg (by rw [hcheck]; exact Bool.false_ne_true), h]
  dsimp only
  rw [Stateful.bind_apply, hwrite]
  rfl

variable {result : Except Failure String} {after : Tree}

theorem puts_deliver (hcheck : invocation.check = false)
    (hdeliver : (deliver invocation config executable : StateM Tree (Except Failure String)) tree =
      (result, after))
    {path : File.Path} (h : outputPath? invocation config (formatFor invocation config) = some path)
    (remarks : String) :
    Puts tree path (artifact executable (formatFor invocation config)) (settled remarks result)
      after := by
  rcases hwrite : (writeArtifact path (artifact executable (formatFor invocation config)) :
    StateM Tree (Except Failure Unit)) tree with ⟨written, left⟩
  rw [deliver_of_path hcheck h hwrite] at hdeliver
  cases hdeliver
  exact puts_writeArtifact hwrite remarks

theorem delivers_deliver (hcheck : invocation.check = false)
    (hdeliver : (deliver invocation config executable : StateM Tree (Except Failure String)) tree =
      (result, after)) (remarks : String) :
    Delivers tree invocation config (artifact executable (formatFor invocation config))
      (settled remarks result) after where
  toPath path houtput := puts_deliver hcheck hdeliver (by rw [outputPath?, houtput]) remarks
  toDirectory houtput directory hdirectory := by
    have hputs := puts_deliver hcheck hdeliver
      (by rw [outputPath?, houtput, hdirectory]; rfl) remarks
    refine ⟨hputs, fun hcode => ?_⟩
    obtain ⟨place, hplace, hreplaces⟩ := hputs.written hcode
    obtain ⟨base, hbase, rfl⟩ := locate_artifactPath hplace
    exact ⟨base, hbase, hreplaces⟩
  printed houtput hdirectory := by
    rw [deliver_of_none hcheck (by rw [outputPath?, houtput, hdirectory]; rfl)] at hdeliver
    cases hdeliver
    exact ⟨rfl, rfl, rfl⟩

end

/-! ## 5. Whole runs -/

section

variable {terminal : Bool} {arguments : List String} {outcome : Outcome} {after : Tree}

theorem run_delivers (hrequest : CommandLine.parse? arguments = some (.compile invocation))
    (hrun : (run terminal arguments order : StateM Tree Outcome) tree = (outcome, after))
    {executable : Executable} (hcheck : invocation.check = false)
    (hcompiles : Compiles tree invocation order config executable) :
    ∃ text, Renders executable (formatFor invocation config) text ∧
      Delivers tree invocation config text outcome after := by
  obtain ⟨grammar, text, hloads, hexecutable⟩ := hcompiles
  rcases hdeliver : (deliver invocation config executable : StateM Tree (Except Failure String))
    tree with ⟨result, left⟩
  rw [run_of_ok hrequest (compile_of_ok _ hloads (Prod.ext hexecutable rfl) hdeliver)] at hrun
  cases hrun
  exact ⟨_, artifact_renders _ _, delivers_deliver hcheck hdeliver _⟩

theorem run_unchanged (hrequest : CommandLine.parse? arguments = some (.compile invocation))
    (hrun : (run terminal arguments order : StateM Tree Outcome) tree = (outcome, after))
    (h : invocation.check = true ∨
      ∀ config executable, ¬ Compiles tree invocation order config executable) :
    after = tree ∧ outcome.output = "" := by
  by_cases hloads : ∃ config grammar text, Loads tree invocation config grammar text
  · -- all is loaded, so the compile fails or the artifact is not wanted
    obtain ⟨config, grammar, text, hloads⟩ := hloads
    rcases hcompiled : compiled grammar order ⟨text, invocation.input⟩ with
      ⟨error | executable, session⟩
    · rw [run_of_ok hrequest (compile_of_error _ hloads hcompiled)] at hrun
      cases hrun
      exact ⟨rfl, output_refusal _ _ _ _⟩
    · rcases h with hcheck | hnever
      · rw [run_of_ok hrequest (compile_of_ok _ hloads hcompiled (deliver_of_check hcheck))] at hrun
        cases hrun
        exact ⟨rfl, rfl⟩
      · exact absurd ⟨grammar, text, hloads, congrArg Prod.fst hcompiled⟩ (hnever config executable)
  · obtain ⟨failure, hfailure⟩ := compile_of_not_loads (terminal && !invocation.noColor)
      (fun config grammar text hloads' => hloads ⟨config, grammar, text, hloads'⟩)
    rw [run_of_error hrequest hfailure] at hrun
    cases hrun
    exact ⟨rfl, rfl⟩

/-- **Where artifacts go.** Nothing is written or printed unless the input compiles and the
artifact is wanted; otherwise the text of its executable goes to one place. -/
theorem run_writes_one_place
    (hrequest : CommandLine.parse? arguments = some (.compile invocation))
    (hrun : (run terminal arguments order : StateM Tree Outcome) tree = (outcome, after)) :
    ((invocation.check = true ∨
        ∀ config executable, ¬ Compiles tree invocation order config executable) →
      after = tree ∧ outcome.output = "") ∧
    ∀ config executable, invocation.check = false → Compiles tree invocation order config executable →
      ∃ text, Renders executable (formatFor invocation config) text ∧
        Delivers tree invocation config text outcome after :=
  ⟨run_unchanged hrequest hrun,
    fun _ _ hcheck hcompiles => run_delivers hrequest hrun hcheck hcompiles⟩

end

/-- A directory with a script and a configuration that puts artifacts beside it. -/
def workshop : Tree where
  home := ["work"]
  directories := [["work"]]
  files := [
    (["work", "scriptc.toml"], "[output]\nformat = \"json\"\ndirectory = \".\"\n".toUTF8),
    (["work", "own.json"],
      ("\x7b\"tag\":\"script\",\"children\":[\x7b\"tag\":\"header\",\"attributes\":" ++
        "\x7b\"name\":\"own\",\"version-number\":\"1.0\"\x7d\x7d," ++
        "\x7b\"tag\":\"code\"\x7d]\x7d").toUTF8)]

/-- A command line whose format is not the configured one. -/
def listingArguments : List String := ["compile", "--format", "listing", "own.json"]

/-- What it asks for. -/
def listingInvocation : Invocation := { input := "own.json", format := some .listing }

theorem run_listing : CommandLine.parse? listingArguments = some (.compile listingInvocation) ∧
    ((run false listingArguments : StateM Tree Outcome) workshop).1.code = 0 ∧
    (((run false listingArguments : StateM Tree Outcome) workshop).2.contents?
      ["work", "own.lst"]).isSome ∧
    (workshop.contents? ["work", "own.lst"]).isNone ∧
    ((configIn workshop listingInvocation).toOption.map Config.output) =
      some { format := .json, directory := some "/work/." } ∧
    (((run false listingArguments : StateM Tree Outcome) workshop).2.placeOf "/work/.").toOption =
      some ["work"] ∧
    artifactName "own.json" .listing = "own.lst" := by
  decide +kernel

/-- The listing goes beside the script, although the configured format is another one. -/
theorem run_puts_listing : CommandLine.parse? listingArguments = some (.compile listingInvocation) ∧
    ∃ config executable, Compiles workshop listingInvocation .byName config executable ∧
      Replaces workshop ((run false listingArguments : StateM Tree Outcome) workshop).2
        ["work", "own.lst"] executable.listing := by
  obtain ⟨hrequest, hcode, hafter, hbefore, hconfig, hbase, hname⟩ := run_listing
  rcases hrun : (run false listingArguments : StateM Tree Outcome) workshop with ⟨outcome, after⟩
  rw [hrun] at hcode hafter hbase
  obtain ⟨hnothing, hdelivers⟩ := run_writes_one_place hrequest hrun
  -- the tree has changed, so the script compiles
  have hchanged : after ≠ workshop := by
    rintro rfl
    rw [Option.isNone_iff_eq_none.1 hbefore] at hafter
    cases hafter
  obtain ⟨config, executable, hcompiles⟩ :
      ∃ config executable, Compiles workshop listingInvocation .byName config executable := by
    apply Classical.byContradiction
    intro hnever
    exact hchanged (hnothing (.inr fun config executable h => hnever ⟨config, executable, h⟩)).1
  have houtput : config.output = { format := .json, directory := some "/work/." } := by
    obtain ⟨_, _, hloads, _⟩ := hcompiles
    rw [hloads.configured] at hconfig
    exact Option.some.inj hconfig
  obtain ⟨text, hrenders, hdelivered⟩ := hdelivers config executable rfl hcompiles
  obtain ⟨base, hplace, hreplaces⟩ :=
    (hdelivered.toDirectory rfl "/work/." (by rw [houtput])).2 hcode
  rw [hplace] at hbase
  cases hbase
  change Replaces workshop after ["work", artifactName "own.json" .listing] text at hreplaces
  rw [hname, hrenders.listing rfl] at hreplaces
  exact ⟨hrequest, config, executable, hcompiles, hreplaces⟩

/-! ## 6. The input -/

/-- **What becomes of the input.** A command line without a path for the artifact leaves the input
where it is. Its contents stay, unless the input lies in the configured directory under the name of
its own artifact, which has taken its place then. -/
theorem run_keeps_input {terminal : Bool} {arguments : List String} {outcome : Outcome}
    {after : Tree} {place : File.Location}
    (hrequest : CommandLine.parse? arguments = some (.compile invocation))
    (houtput : invocation.output = none) (hplace : tree.locate invocation.input = .ok place)
    (hrun : (run terminal arguments order : StateM Tree Outcome) tree = (outcome, after)) :
    after.locate invocation.input = .ok place ∧
    (after.contents? place = tree.contents? place ∨
      ∃ config executable directory base, invocation.check = false ∧
        Compiles tree invocation order config executable ∧ config.output.directory = some directory ∧
        after.placeOf directory = .ok base ∧
        place = base ++ [artifactName invocation.input (formatFor invocation config)] ∧
        ∃ text, Renders executable (formatFor invocation config) text ∧
          after.contents? place = some text.toUTF8) := by
  by_cases h : invocation.check = false ∧
      ∃ config executable, Compiles tree invocation order config executable
  · obtain ⟨hcheck, config, executable, hcompiles⟩ := h
    obtain ⟨text, hrenders, hdelivers⟩ := run_delivers hrequest hrun hcheck hcompiles
    cases hdirectory : config.output.directory with
    | none =>
      obtain ⟨rfl, -, -⟩ := hdelivers.printed houtput hdirectory
      exact ⟨hplace, .inl rfl⟩
    | some directory =>
      obtain ⟨hputs, hreplaces⟩ := hdelivers.toDirectory houtput directory hdirectory
      refine ⟨hputs.grows.locate hplace, ?_⟩
      by_cases hcode : outcome.code = 0
      -- the one file that has changed is the input, or it is another one
      · obtain ⟨base, hbase, hreplaces⟩ := hreplaces hcode
        by_cases hsame :
            place = base ++ [artifactName invocation.input (formatFor invocation config)]
        · exact .inr ⟨config, executable, directory, base, hcheck, hcompiles, hdirectory, hbase,
            hsame, text, hrenders, hsame ▸ hreplaces.written⟩
        · exact .inl (hreplaces.others place hsame)
      · refine .inl ?_
        rw [Tree.contents?, Tree.contents?, hputs.failed hcode]
  · have hunchanged := run_unchanged hrequest hrun (by
      cases hcheck : invocation.check with
      | true => exact .inl rfl
      | false =>
        exact .inr fun config executable hcompiles => h ⟨hcheck, config, executable, hcompiles⟩)
    obtain ⟨rfl, -⟩ := hunchanged
    exact ⟨hplace, .inl rfl⟩

/-- An input that is lost: it lies in the configured directory, and its artifact has its name. -/
theorem workshop_input_replaced :
    CommandLine.parse? ["compile", "own.json"] = some (.compile { input := "own.json" }) ∧
    workshop.locate "own.json" = .ok ["work", "own.json"] ∧
    ((run false ["compile", "own.json"] : StateM Tree Outcome) workshop).2.contents?
      ["work", "own.json"] ≠ workshop.contents? ["work", "own.json"] :=
  ⟨by decide +kernel, rfl, by decide +kernel⟩

/-- An input that is kept: its artifact lies beside it, under another name. -/
theorem workshop_input_kept :
    CommandLine.parse? listingArguments = some (.compile listingInvocation) ∧
    workshop.locate "own.json" = .ok ["work", "own.json"] ∧
    ((run false listingArguments : StateM Tree Outcome) workshop).2.contents? ["work", "own.json"] =
      workshop.contents? ["work", "own.json"] := by
  obtain ⟨hrequest, -, -, -, -, -, hname⟩ := run_listing
  have hplace : workshop.locate "own.json" = .ok ["work", "own.json"] := rfl
  rcases hrun : (run false listingArguments : StateM Tree Outcome) workshop with ⟨outcome, after⟩
  refine ⟨hrequest, hplace, ?_⟩
  rcases (run_keeps_input hrequest rfl hplace hrun).2 with
    hkept | ⟨config, _, _, base, -, -, -, -, hsame, -⟩
  · exact hkept
  · change ["work", "own.json"] = base ++ [artifactName "own.json" .listing] at hsame
    have hlast := congrArg List.getLast? hsame
    rw [hname, List.getLast?_concat] at hlast
    exact absurd hlast (by decide)

end Command

end TreeScript
