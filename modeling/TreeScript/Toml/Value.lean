import TreeScript.Toml.DateTime

/-!
# TOML values

A TOML document is a table. Tables are built up line by line, and how a table came about decides
what may still be added to it: no table is defined twice, and what stands in braces is closed.

* `Entries.put?` adds a value under a key.
* `Entries.startTable?` and `Entries.startElement?` start the table of a header.
* `Entries.reach?` does either at the end of a path.
-/

namespace TreeScript.Toml

/-! ## 1. Values and tables -/

/-- How a table came about. -/
inductive Origin where
  /-- It has a header of its own, or is the whole document. -/
  | header
  /-- It is on the way to the table of a header. -/
  | implicit
  /-- It is on the way to a dotted key. -/
  | dotted
  /-- It was written in braces. -/
  | inline
deriving DecidableEq, Repr

/-- A value. Of floats only the type is kept. -/
inductive Value where
  | string (s : String)
  | integer (n : Int)
  | float
  | boolean (b : Bool)
  | dateTime (d : DateTime)
  | array (items : List Value)
  | table (origin : Origin) (entries : List (String × Value))
  /-- Tables that share a doubly bracketed header; the last one is still open. -/
  | tables (earlier : List (List (String × Value))) (last : List (String × Value))

/-- The entries of a table in the order they were written. -/
abbrev Entries := List (String × Value)

/-- A key with dots: the path of a table, and a name in that table. -/
structure Key where
  path : List String := []
  name : String
deriving DecidableEq, Repr

namespace Entries

def replace (entries : Entries) (key : String) (value : Value) : Entries :=
  entries.map fun entry => if entry.1 = key then (key, value) else entry

/-! ## 2. Reaching a table -/

/-- Walks along a path of keys and acts on the table it leads to. `dotted` tells whether the path
belongs to a key or to a header. -/
def reach? (dotted : Bool) (act : Origin → Entries → Option (Origin × Entries)) :
    List String → Origin → Entries → Option (Origin × Entries)
  | [], origin, entries => act origin entries
  | key :: path, origin, entries =>
    match entries.lookup key with
    -- a table that is missing on the way is made
    | none =>
      (reach? dotted act path (if dotted then .dotted else .implicit) []).map fun reached =>
        (origin, entries ++ [(key, .table reached.1 reached.2)])
    | some (.table inner innerEntries) =>
      -- braces are closed, and the path of a key does not enter the table of a header
      if inner = .inline ∨ dotted ∧ inner = .header then none
      else
        (reach? dotted act path inner innerEntries).map fun reached =>
          (origin, entries.replace key (.table reached.1 reached.2))
    -- of tables that share a header the last one is meant
    | some (.tables earlier last) =>
      (reach? dotted act path .header last).map fun reached =>
        (origin, entries.replace key (.tables earlier reached.2))
    | some _ => none

/-! ## 3. Adding to a table -/

/-- Adds a new name to a table. A key with dots ends in a table of such keys. -/
def add? (viaDots : Bool) (name : String) (value : Value) (origin : Origin) (entries : Entries) :
    Option (Origin × Entries) :=
  if viaDots ∧ origin ≠ .dotted ∨ (entries.lookup name).isSome then none
  else some (origin, entries ++ [(name, value)])

def put? (key : Key) (value : Value) (origin : Origin) (entries : Entries) :
    Option (Origin × Entries) :=
  reach? true (add? (!key.path.isEmpty) key.name value) key.path origin entries

/-- Starts the table of a header. -/
def startTable? (name : String) (origin : Origin) (entries : Entries) :
    Option (Origin × Entries) :=
  match entries.lookup name with
  | none => some (origin, entries ++ [(name, .table .header [])])
  -- the table was on the way to others before its own header
  | some (.table .implicit inner) => some (origin, entries.replace name (.table .header inner))
  | some _ => none

/-- Starts another table of a doubly bracketed header. -/
def startElement? (name : String) (origin : Origin) (entries : Entries) :
    Option (Origin × Entries) :=
  match entries.lookup name with
  | none => some (origin, entries ++ [(name, .tables [] [])])
  | some (.tables earlier last) =>
    some (origin, entries.replace name (.tables (earlier ++ [last]) []))
  | some _ => none

/-- The table in braces with these keys. -/
def ofPairs? (pairs : List (Key × Value)) : Option Value :=
  (pairs.foldlM (fun table pair => put? pair.1 pair.2 table.1 table.2)
    (Origin.header, [])).map fun table => .table .inline table.2

end Entries

end TreeScript.Toml
