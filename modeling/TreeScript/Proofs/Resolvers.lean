import TreeScript.Config
import TreeScript.Proofs.Files
import TreeScript.Proofs.SortedMap

/-!
# Grammars by name

A resolver hands out the grammar that was asked for, or none. A name that has been registered is looked
for in one file, the one registered last, and a file that cannot be used is no reason to look elsewhere.
Only a name without a file may be that of the standard grammar, which is read from a text of its own.
-/

namespace TreeScript

namespace Grammar

/-! ## 1. The text of the standard grammar -/

/-- The declaration of the standard grammar. -/
def standardText : String := r#"# Standard grammar for tree scripts.
#
# Each element lists the attributes it accepts, the subset it requires, the
# elements allowed as children (`@name` expands a group) and whether it may
# carry text content.

id = "script-1.0"
root = "script"

[groups]
statement = [
    "assert",
    "block",
    "buffer",
    "call",
    "exec",
    "for",
    "goto",
    "if",
    "input",
    "label",
    "math",
    "member-call",
    "return",
    "set",
    "subroutine",
    "while",
]

[elements.script]
children = ["header", "code"]

[elements.header]
attributes = ["name", "uid", "version-number"]
required = ["name", "version-number"]
children = ["note", "output"]

[elements.note]
text = true

[elements.output]
attributes = ["name", "type"]
required = ["name"]

[elements.code]
children = ["@statement"]

[elements.block]
children = ["@statement"]

[elements.assert]
attributes = ["item", "type"]
required = ["item"]
children = ["@statement"]

[elements.buffer]
attributes = ["name", "clear", "eval", "value", "buffer"]
required = ["name"]
text = true

[elements.call]
attributes = ["name", "result"]
required = ["name"]
children = ["set"]

[elements.exec]
attributes = ["name", "result"]
required = ["name"]
children = ["set"]

[elements.subroutine]
attributes = ["name", "result"]
required = ["name"]
children = ["set"]

[elements.member-call]
attributes = ["name", "method", "result"]
required = ["name", "method"]
children = ["set"]

[elements.for]
attributes = ["name", "count", "eval", "ref", "buffer"]
required = ["name"]
children = ["@statement"]

[elements.while]
attributes = ["name", "eval", "value", "ref", "buffer"]
required = ["name"]
children = ["@statement"]

[elements.if]
attributes = ["item", "type", "eval", "value", "ref", "buffer"]
required = ["item"]
children = ["@statement"]

[elements.goto]
attributes = ["label"]
required = ["label"]

[elements.label]
attributes = ["name"]
required = ["name"]

[elements.math]
attributes = ["left", "oper", "output", "eval", "value", "ref", "buffer"]
required = ["left", "oper"]

[elements.set]
attributes = ["name", "new", "eval", "value", "ref", "buffer"]
required = ["name"]

[elements.input]
attributes = ["name", "eval", "value", "buffer"]
required = ["name"]

[elements.return]
"#

set_option maxRecDepth 20000 in
/-- The text of the standard grammar is a consistent declaration of it. -/
theorem parse_standardText : parse standardText = .ok standard := by
  -- the characters are taken from the literal as they stand; decoding its bytes would take long
  have hchars : standardText.toList = _ := String.toList_ofList
  apply Fallible.eq_ok_of_toOption
  rw [parse, hchars]
  decide +kernel

/-! ## 2. Files and names -/

namespace Resolver

open File (Tree)

/-- What is said about a name once its file has been read, or could not be read. -/
inductive Answers (id : String) (path : File.Path) :
    Except File.Error String → Except Error Grammar → Prop where
  | unreadable (cause : File.Error) : Answers id path (.error cause) (.error (.unreadable path cause))
  | unparsable {text : String} (h : (Toml.read text.toList).bind Declaration.of? = none) :
    Answers id path (.ok text) (.error .unparsable)
  | inconsistent {text : String} {declaration : Declaration} {cause : Inconsistency}
    (h : (Toml.read text.toList).bind Declaration.of? = some declaration)
    (hbuild : declaration.build = .error cause) :
    Answers id path (.ok text) (.error (.inconsistent declaration.id cause))
  | renamed {text : String} {grammar : Grammar} (h : parse text = .ok grammar) (hid : grammar.id ≠ id) :
    Answers id path (.ok text) (.error (.wrongId id grammar.id))
  | found {text : String} {grammar : Grammar} (h : parse text = .ok grammar) (hid : grammar.id = id) :
    Answers id path (.ok text) (.ok grammar)

/-- The answer that is drawn from a file. -/
def answerOf (id : String) (path : File.Path) : Except File.Error String → Except Error Grammar
  | .ok text => check id text
  | .error cause => .error (.unreadable path cause)

theorem check_of_ok {id text : String} {grammar : Grammar} (h : parse text = .ok grammar) :
    check id text = if grammar.id = id then .ok grammar else .error (.wrongId id grammar.id) := by
  rw [check, h]
  rfl

theorem check_of_error {id text : String} {error : Error} (h : parse text = .error error) :
    check id text = .error error := by
  rw [check, h]
  rfl

theorem answers_answerOf (id : String) (path : File.Path) (contents : Except File.Error String) :
    Answers id path contents (answerOf id path contents) := by
  cases contents with
  | error cause => exact .unreadable cause
  | ok text =>
    show Answers id path (.ok text) (check id text)
    cases hparse : parse text with
    | ok grammar =>
      rw [check_of_ok hparse]
      by_cases hid : grammar.id = id
      · rw [if_pos hid]
        exact .found hparse hid
      · rw [if_neg hid]
        exact .renamed hparse hid
    | error error =>
      rw [check_of_error hparse]
      -- a text without a grammar declares nothing, or something inconsistent
      rw [parse] at hparse
      split at hparse
      next hnone =>
        cases hparse
        exact .unparsable hnone
      next declaration hdeclaration =>
        split at hparse
        next => cases hparse
        next cause hbuild =>
          cases hparse
          exact .inconsistent hdeclaration hbuild

theorem Answers.id_eq {id : String} {path : File.Path} {contents : Except File.Error String}
    {grammar : Grammar} (h : Answers id path contents (.ok grammar)) : grammar.id = id := by
  cases h with
  | found _ hid => exact hid

/-- A resolver reads the file at a path to answer for a name, does nothing else, and answers by what is
in the file. -/
def Consults (resolver : Resolver) (id : String) (path : File.Path) : Prop :=
  ∃ answer : Except File.Error String → Except Error Grammar,
    (∀ contents, Answers id path contents (answer contents)) ∧
      ∀ (m : Type → Type) [Monad m] [LawfulMonad m] [File.Access m],
        resolver.resolve id = (answer <$> File.readText path : m (Except Error Grammar))

/-- A resolver touches no file to answer for a name: the grammar is the standard one, or unknown. -/
def Knows (resolver : Resolver) (id : String) : Prop :=
  ∀ (m : Type → Type) [Monad m] [File.Access m],
    resolver.resolve id =
      (pure (if id = "script-1.0" then parse standardText else .error (.unknownId id)) :
        m (Except Error Grammar))

theorem consults_of_get? {resolver : Resolver} {id : String} {path : File.Path}
    (h : resolver.paths.get? id = some path) : resolver.Consults id path := by
  refine ⟨answerOf id path, answers_answerOf id path, ?_⟩
  intro m _ _ _
  rw [resolve, h, map_eq_pure_bind]
  refine bind_congr fun contents => ?_
  cases contents <;> rfl

theorem knows_of_get? {resolver : Resolver} {id : String} (h : resolver.paths.get? id = none) :
    resolver.Knows id := by
  intro m _ _
  rw [resolve, h, parse_standardText]
  rfl

/-- What a resolver answers where the files are those of a tree. -/
def answerIn (resolver : Resolver) (tree : Tree) (id : String) : Except Error Grammar :=
  ((resolver.resolve id : StateM Tree (Except Error Grammar)) tree).1

theorem Consults.id_eq {resolver : Resolver} {id : String} {path : File.Path}
    (h : resolver.Consults id path) {tree : Tree} {grammar : Grammar}
    (hanswer : resolver.answerIn tree id = .ok grammar) : grammar.id = id := by
  obtain ⟨answer, hanswers, hresolve⟩ := h
  rw [answerIn, hresolve] at hanswer
  have hfound := hanswers (tree.readText path)
  rw [show answer (tree.readText path) = .ok grammar from hanswer] at hfound
  exact hfound.id_eq

theorem Knows.id_eq {resolver : Resolver} {id : String} (h : resolver.Knows id) {tree : Tree}
    {grammar : Grammar} (hanswer : resolver.answerIn tree id = .ok grammar) : grammar.id = id := by
  rw [answerIn, h, parse_standardText] at hanswer
  by_cases hid : id = "script-1.0"
  · rw [if_pos hid] at hanswer
    cases hanswer
    exact hid.symm
  · rw [if_neg hid] at hanswer
    cases hanswer

/-- A resolver that answers for a name from the file at a path, if there is one, and without any file
otherwise, and hands out no grammar of another name. -/
structure Serves (resolver : Resolver) (id : String) (path? : Option File.Path) : Prop where
  consults : ∀ path, path? = some path → resolver.Consults id path
  knows : path? = none → resolver.Knows id
  id_eq : ∀ (tree : Tree) (grammar : Grammar), resolver.answerIn tree id = .ok grammar → grammar.id = id

theorem serves_get? (resolver : Resolver) (id : String) :
    resolver.Serves id (resolver.paths.get? id) where
  consults _ := consults_of_get?
  knows := knows_of_get?
  id_eq tree grammar hanswer := by
    cases hpath : resolver.paths.get? id with
    | none => exact (knows_of_get? hpath).id_eq hanswer
    | some path => exact (consults_of_get? hpath).id_eq hanswer

/-! ## 3. Registrations -/

/-- A resolver after registrations, in their order. -/
def ofRegistrations (registrations : List (String × File.Path)) : Resolver :=
  registrations.foldl (fun resolver entry => resolver.register entry.1 entry.2) {}

/-- The path that was registered last for a name. -/
def lastPath? (registrations : List (String × File.Path)) (id : String) : Option File.Path :=
  registrations.reverse.lookup id

theorem get?_register (resolver : Resolver) (entry : String × File.Path) (id : String) :
    (resolver.register entry.1 entry.2).paths.get? id =
      ([entry].lookup id).or (resolver.paths.get? id) := by
  show (resolver.paths.insert entry.1 entry.2).get? id = _
  rw [SortedMap.get?_insert, SortedMap.lookup_cons_eq_ite]
  split <;> rfl

theorem get?_foldl_register (registrations : List (String × File.Path)) (resolver : Resolver)
    (id : String) :
    (registrations.foldl (fun resolver entry => resolver.register entry.1 entry.2) resolver).paths.get?
        id = (lastPath? registrations id).or (resolver.paths.get? id) := by
  induction registrations generalizing resolver with
  | nil => rfl
  | cons entry registrations ih =>
    rw [List.foldl_cons, ih, get?_register, lastPath?, lastPath?, List.reverse_cons,
      List.lookup_append, Option.or_assoc]

theorem get?_ofRegistrations (registrations : List (String × File.Path)) (id : String) :
    (ofRegistrations registrations).paths.get? id = lastPath? registrations id := by
  rw [ofRegistrations, get?_foldl_register]
  exact Option.or_none

end Resolver

end Grammar

/-! ## 4. Configurations -/

namespace Config

open File (Tree)

/-- A configuration file describes a configuration, with paths as they stand in its text. -/
def Describes (tree : Tree) (path : File.Path) (config : Config) : Prop :=
  ∃ text, tree.readText path = .ok text ∧ (Toml.read text.toList).bind of? = some config

/-- The directory that the paths of a configuration file are relative to. -/
def base (path : File.Path) : File.Path :=
  (File.Path.parent? path).getD "."

theorem load_apply (path : File.Path) (tree : Tree) :
    (load path : StateM Tree (Except ConfigError Config)) tree =
      (((tree.readText path).mapError (.unreadable path)).bind (parse path), tree) := by
  rw [load, Stateful.bind_apply, File.readText_apply]
  cases tree.readText path <;> rfl

theorem describes_of_load {tree : Tree} {path : File.Path} {config : Config}
    (h : ((load path : StateM Tree (Except ConfigError Config)) tree).1 = .ok config) :
    ∃ described, Describes tree path described ∧ config = described.rebase (base path) := by
  rw [load_apply] at h
  cases hread : tree.readText path with
  | error cause =>
    rw [hread] at h
    cases h
  | ok text =>
    rw [hread] at h
    change parse path text = .ok config at h
    rw [parse] at h
    split at h
    next => cases h
    next described hdescribed =>
      cases h
      exact ⟨described, ⟨text, hread, hdescribed⟩, rfl⟩

theorem get?_rebase (config : Config) (directory : File.Path) (id : String) :
    (config.rebase directory).grammars.get? id =
      (config.grammars.get? id).map (File.Path.join directory) :=
  SortedMap.get?_map _ _ _

end Config

namespace Grammar.Resolver

open File (Tree)

/-- A resolver only hands out the grammar that was asked for. A name that has been registered is looked
for in the file registered last and nowhere else; without a file, only the name of the standard grammar
is known. The same holds for the files that a configuration names, relative to the directory that it
lies in. -/
theorem resolve_asked (registrations : List (String × File.Path)) (id : String) :
    (ofRegistrations registrations).Serves id (lastPath? registrations id) ∧
    parse standardText = .ok standard ∧
    (∀ config : Config, config.resolver.Serves id (config.grammars.get? id)) ∧
    ∀ (tree : Tree) (path : File.Path) (config : Config),
      ((Config.load path : StateM Tree (Except ConfigError Config)) tree).1 = .ok config →
        ∃ described, Config.Describes tree path described ∧
          config.grammars.get? id =
            (described.grammars.get? id).map (File.Path.join (Config.base path)) := by
  refine ⟨?_, parse_standardText, fun config => serves_get? config.resolver id, ?_⟩
  · rw [← get?_ofRegistrations]
    exact serves_get? _ id
  · intro tree path config hload
    obtain ⟨described, hdescribed, rfl⟩ := Config.describes_of_load hload
    exact ⟨described, hdescribed, Config.get?_rebase described _ id⟩

/-- Registrations that put the name of the standard grammar on a file, and then on one that is
missing. -/
def relocated : List (String × File.Path) :=
  [("script-1.0", "own.toml"), ("tiny", "tiny.toml"), ("script-1.0", "gone.toml")]

theorem relocated_asked :
    lastPath? relocated "script-1.0" = some "gone.toml" ∧
      (ofRegistrations relocated).Consults "script-1.0" "gone.toml" ∧
      (ofRegistrations relocated).answerIn {} "script-1.0" =
        .error (.unreadable "gone.toml" .notFound) := by
  have hlast : lastPath? relocated "script-1.0" = some "gone.toml" := rfl
  exact ⟨hlast, (resolve_asked relocated "script-1.0").1.consults _ hlast, rfl⟩

end Grammar.Resolver

end TreeScript
