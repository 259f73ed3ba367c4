import TreeScript.File.Access
import TreeScript.Grammar.Declaration
import TreeScript.Grammar.Standard

/-!
# Resolvers

A grammar is asked for by its name. A resolver knows the files of some grammars; the standard
grammar is there besides, unless its name is taken by a file.
-/

namespace TreeScript.Grammar

structure Resolver where
  paths : SortedMap File.Path := ∅

namespace Resolver

/-- Registers a file for a grammar. A later registration of the same name wins. -/
def register (resolver : Resolver) (id : String) (path : File.Path) : Resolver :=
  ⟨resolver.paths.insert id path⟩

/-- The grammar with a name among those that need no file. -/
def builtin (id : String) : Except Error Grammar :=
  if id = standardId then .ok standard else .error (.unknownId id)

/-- The grammar in a text, which has to declare the name it was asked for by. -/
def check (id : String) (text : String) : Except Error Grammar := do
  let grammar ← parse text
  if grammar.id = id then return grammar else throw (.wrongId id grammar.id)

variable {m : Type → Type} [Monad m] [File.Access m]

def resolve (resolver : Resolver) (id : String) : m (Except Error Grammar) := do
  match resolver.paths.get? id with
  | none => return builtin id
  | some path =>
    match ← File.readText path with
    | .ok text => return check id text
    | .error cause => return .error (.unreadable path cause)

end Resolver

end TreeScript.Grammar
