/-!
# Maps in key order

A map from names to values, kept as a list in strictly ascending order of the names. Two maps with
the same entries are therefore equal, and listing a map gives its keys sorted.
-/

namespace TreeScript

/-- Entries by name, in ascending order of the names. -/
structure SortedMap (α : Type) where
  entries : List (String × α)
  sorted : entries.Pairwise (fun a b => a.1 < b.1)
deriving DecidableEq, Repr

namespace SortedMap

variable {α : Type}

/-- Puts an entry into its place among ordered entries; an entry of the same name gives way. -/
def insertEntry (key : String) (value : α) : List (String × α) → List (String × α)
  | [] => [(key, value)]
  | entry :: rest =>
    if key < entry.1 then (key, value) :: entry :: rest
    else if key = entry.1 then (key, value) :: rest
    else entry :: insertEntry key value rest

/-- The keys after an insertion are the keys before it and the new one. -/
theorem mem_insertEntry {key : String} {value : α} {entries : List (String × α)}
    {entry : String × α} (h : entry ∈ insertEntry key value entries) :
    entry = (key, value) ∨ entry ∈ entries := by
  induction entries with
  | nil => simpa [insertEntry] using h
  | cons first rest ih =>
    unfold insertEntry at h
    split at h
    next => simpa using h
    next =>
      split at h
      next =>
        rcases List.mem_cons.1 h with h | h
        · exact .inl h
        · exact .inr (List.mem_cons_of_mem _ h)
      next =>
        rcases List.mem_cons.1 h with h | h
        · exact .inr (h ▸ List.mem_cons_self)
        · exact (ih h).imp id (List.mem_cons_of_mem _)

/-- An insertion keeps the order. -/
theorem pairwise_insertEntry (key : String) (value : α) {entries : List (String × α)}
    (h : entries.Pairwise (fun a b => a.1 < b.1)) :
    (insertEntry key value entries).Pairwise (fun a b => a.1 < b.1) := by
  induction entries with
  | nil => simp [insertEntry]
  | cons first rest ih =>
    have hrest := List.pairwise_cons.1 h
    unfold insertEntry
    split
    next hlt =>
      refine List.pairwise_cons.2 ⟨fun entry hentry => ?_, h⟩
      rcases List.mem_cons.1 hentry with rfl | hentry
      · exact hlt
      · exact String.lt_trans hlt (hrest.1 entry hentry)
    next hnlt =>
      split
      next heq =>
        refine List.pairwise_cons.2 ⟨fun entry hentry => ?_, hrest.2⟩
        exact heq ▸ hrest.1 entry hentry
      next hne =>
        have hgt : first.1 < key := by
          rcases Std.lt_trichotomy first.1 key with hlt | heq | hlt
          · exact hlt
          · exact absurd heq.symm hne
          · exact absurd hlt hnlt
        refine List.pairwise_cons.2 ⟨fun entry hentry => ?_, ih hrest.2⟩
        rcases mem_insertEntry hentry with rfl | hentry
        · exact hgt
        · exact hrest.1 entry hentry

def empty : SortedMap α := ⟨[], List.Pairwise.nil⟩

instance : EmptyCollection (SortedMap α) := ⟨empty⟩

instance : Inhabited (SortedMap α) := ⟨∅⟩

/-- Sets the value of a key. -/
def insert (m : SortedMap α) (key : String) (value : α) : SortedMap α :=
  ⟨insertEntry key value m.entries, pairwise_insertEntry key value m.sorted⟩

/-- Collects entries; of equal keys the last one stays. -/
def ofList (entries : List (String × α)) : SortedMap α :=
  entries.foldl (fun m entry => m.insert entry.1 entry.2) ∅

def get? (m : SortedMap α) (key : String) : Option α :=
  m.entries.lookup key

def contains (m : SortedMap α) (key : String) : Bool :=
  (m.get? key).isSome

/-- The keys, in ascending order. -/
def keys (m : SortedMap α) : List String :=
  m.entries.map Prod.fst

def size (m : SortedMap α) : Nat :=
  m.entries.length

def map {β : Type} (f : α → β) (m : SortedMap α) : SortedMap β :=
  ⟨m.entries.map fun entry => (entry.1, f entry.2), by
    simpa [List.pairwise_map] using m.sorted⟩

end SortedMap

/-- A set of names, in ascending order. -/
abbrev NameSet := SortedMap Unit

namespace NameSet

/-- Collects names, each once. -/
def ofNames (names : List String) : NameSet :=
  SortedMap.ofList (names.map fun name => (name, ()))

end NameSet

end TreeScript
