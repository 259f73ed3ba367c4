import TreeScript.SortedMap
import TreeScript.Toml.Value

/-!
# Typed views of TOML values

A declaration expects values of certain types; a value of another type is refused. A record is
written as a table, and may also be written as the list of its fields in their order. Fields that
a record does not have are passed over.
-/

namespace TreeScript.Toml

variable {α : Type}

namespace Value

def string? : Value → Option String
  | .string s => some s
  | _ => none

def boolean? : Value → Option Bool
  | .boolean b => some b
  | _ => none

/-- The items of a list; tables that share a header are a list too. -/
def items? : Value → Option (List Value)
  | .array items => some items
  | .tables earlier last => some ((earlier ++ [last]).map (.table .header))
  | _ => none

/-- The key under which a date counts as a table. -/
def dateTimeKey : String := "$__toml_private_datetime"

/-- The entries of a table. A date counts as a table that holds its text under a key of its own. -/
def entries? : Value → Option Entries
  | .table _ entries => some entries
  | .dateTime d => some [(dateTimeKey, .string d.text)]
  | _ => none

/-- A list of values of one type. -/
def listOf? (item : Value → Option α) (value : Value) : Option (List α) := do
  (← value.items?).mapM item

def mapOf? (item : Value → Option α) (value : Value) : Option (SortedMap α) := do
  let entries ← (← value.entries?).mapM fun entry => (item entry.2).map fun a => (entry.1, a)
  return SortedMap.ofList entries

/-- One of several names. A name may also be the only key of a table that says nothing else. -/
def choice? (ofName? : String → Option α) (value : Value) : Option α :=
  let isBare (inner : Value) :=
    (inner.items?.map List.isEmpty).getD false || (inner.entries?.map List.isEmpty).getD false
  match value with
  | .string name => ofName? name
  | .table _ [(name, inner)] => if isBare inner then ofName? name else none
  | _ => none

end Value

/-- The values of the fields of a record. -/
abbrev Fields := String → Option Value

namespace Fields

/-- The fields of a record that is written as a table. -/
def ofEntries (entries : Entries) : Fields :=
  fun name => entries.lookup name

/-- The fields of a record with these names. -/
def of? (names : List String) (value : Value) : Option Fields :=
  match value.entries? with
  | some entries => some (ofEntries entries)
  -- a record may also be a list of its fields in their order
  | none => value.items?.map fun items name => (names.zip items).lookup name

/-- A field that has to be there. -/
def required? (fields : Fields) (name : String) (decode : Value → Option α) : Option α := do
  decode (← fields name)

/-- A field with a default. -/
def orElse? (fields : Fields) (name : String) (default : α) (decode : Value → Option α) :
    Option α :=
  match fields name with
  | none => some default
  | some value => decode value

end Fields

end TreeScript.Toml
