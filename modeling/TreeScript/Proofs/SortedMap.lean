import TreeScript.SortedMap

/-!
# Looking up in maps

What a key is mapped to after an insertion, and among collected entries.
-/

namespace TreeScript

namespace SortedMap

variable {α : Type}

@[simp] theorem get?_empty (key : String) : (∅ : SortedMap α).get? key = none := rfl

theorem lookup_cons_eq_ite (entry : String × α) (entries : List (String × α)) (key : String) :
    (entry :: entries).lookup key = if key = entry.1 then some entry.2 else entries.lookup key := by
  by_cases h : key = entry.1
  · rw [if_pos h, List.lookup_cons, beq_iff_eq.2 h]
  · rw [if_neg h, List.lookup_cons, beq_eq_false_iff_ne.2 h]

theorem mem_keys {m : SortedMap α} {key : String} : key ∈ m.keys ↔ m.contains key := by
  rw [keys, contains, get?, List.lookup_isSome_iff, List.mem_map]
  refine exists_congr fun entry => and_congr_right fun _ => ?_
  rw [beq_iff_eq, eq_comm]

theorem keys_pairwise (m : SortedMap α) : m.keys.Pairwise (· < ·) :=
  List.pairwise_map.2 m.sorted

theorem lookup_insertEntry (key : String) (value : α) (entries : List (String × α))
    (other : String) :
    (insertEntry key value entries).lookup other =
      if other = key then some value else entries.lookup other := by
  induction entries with
  | nil => exact lookup_cons_eq_ite (key, value) [] other
  | cons entry rest ih =>
    unfold insertEntry
    split
    next => exact lookup_cons_eq_ite (key, value) (entry :: rest) other
    next =>
      split
      next heq =>
        -- the entry that gives way has the same key
        rw [lookup_cons_eq_ite, lookup_cons_eq_ite, ← heq]
        split <;> rfl
      next hne =>
        rw [lookup_cons_eq_ite, lookup_cons_eq_ite, ih]
        by_cases hentry : other = entry.1
        · have hother : other ≠ key := fun h => hne (h.symm.trans hentry)
          rw [if_pos hentry, if_neg hother, if_pos hentry]
        · rw [if_neg hentry, if_neg hentry]

/-- An insertion changes the value of its own key and of no other. -/
theorem get?_insert (m : SortedMap α) (key : String) (value : α) (other : String) :
    (m.insert key value).get? other = if other = key then some value else m.get? other :=
  lookup_insertEntry key value m.entries other

theorem get?_map {β : Type} (f : α → β) (m : SortedMap α) (key : String) :
    (m.map f).get? key = (m.get? key).map f := by
  show (m.entries.map fun entry => (entry.1, f entry.2)).lookup key = (m.entries.lookup key).map f
  induction m.entries with
  | nil => rfl
  | cons entry entries ih =>
    rw [List.map_cons, lookup_cons_eq_ite, lookup_cons_eq_ite, ih, apply_ite (Option.map f)]
    rfl

/-- An entry with the greatest key goes to the end. -/
theorem insertEntry_of_forall_lt {key : String} (value : α) {entries : List (String × α)}
    (h : ∀ entry ∈ entries, entry.1 < key) :
    insertEntry key value entries = entries ++ [(key, value)] := by
  induction entries with
  | nil => rfl
  | cons first rest ih =>
    rw [List.forall_mem_cons] at h
    have hlt : ¬ key < first.1 := String.lt_asymm h.1
    have hne : key ≠ first.1 := fun heq => String.lt_irrefl key (heq ▸ h.1)
    rw [insertEntry, if_neg hlt, if_neg hne, ih h.2, List.cons_append]

private theorem entries_foldl_insert {entries : List (String × α)} {m : SortedMap α}
    (h : (m.entries ++ entries).Pairwise fun a b => a.1 < b.1) :
    (entries.foldl (fun m entry => m.insert entry.1 entry.2) m).entries = m.entries ++ entries := by
  induction entries generalizing m with
  | nil => rw [List.foldl_nil, List.append_nil]
  | cons entry entries ih =>
    -- the entry that comes next is greater than all that are there
    have hinsert : (m.insert entry.1 entry.2).entries = m.entries ++ [entry] :=
      insertEntry_of_forall_lt entry.2 fun other hother =>
        (List.pairwise_append.1 h).2.2 other hother entry List.mem_cons_self
    have happend : m.entries ++ entry :: entries = (m.insert entry.1 entry.2).entries ++ entries := by
      rw [hinsert, List.append_assoc, List.singleton_append]
    rw [happend] at h ⊢
    exact ih h

/-- Collecting the entries of a map gives the map. -/
theorem ofList_entries (m : SortedMap α) : ofList m.entries = m := by
  have hentries : (ofList m.entries).entries = m.entries := entries_foldl_insert m.sorted
  cases h : ofList m.entries
  cases m
  rw [h] at hentries
  cases hentries
  rfl

private theorem mem_of_get?_foldl {entries : List (String × α)} {m : SortedMap α} {key : String}
    {value : α}
    (h : (entries.foldl (fun m entry => m.insert entry.1 entry.2) m).get? key = some value) :
    (key, value) ∈ entries ∨ m.get? key = some value := by
  induction entries generalizing m with
  | nil => exact .inr h
  | cons entry entries ih =>
    rcases ih h with hmem | hget
    · exact .inl (List.mem_cons_of_mem _ hmem)
    · rw [get?_insert] at hget
      split at hget
      next heq =>
        cases hget
        exact .inl (heq ▸ List.mem_cons_self)
      next => exact .inr hget

/-- What is looked up in collected entries is one of them. -/
theorem mem_of_get?_ofList {entries : List (String × α)} {key : String} {value : α}
    (h : (ofList entries).get? key = some value) : (key, value) ∈ entries := by
  rcases mem_of_get?_foldl h with hmem | hnone
  · exact hmem
  · cases hnone

/-- No two entries have the same key, so that each is what is found under its key. -/
theorem mem_entries {m : SortedMap α} {key : String} {value : α} :
    (key, value) ∈ m.entries ↔ m.get? key = some value := by
  obtain ⟨entries, hsorted⟩ := m
  change _ ↔ entries.lookup key = some value
  induction entries with
  | nil => simp
  | cons entry entries ih =>
    obtain ⟨hfirst, hrest⟩ := List.pairwise_cons.1 hsorted
    rw [List.mem_cons, lookup_cons_eq_ite, ih hrest]
    by_cases hkey : key = entry.1
    · rw [if_pos hkey]
      constructor
      · rintro (rfl | hlookup)
        · rfl
        · -- an entry behind has a greater key
          have hlt := hfirst (key, value) ((ih hrest).2 hlookup)
          exact absurd (hkey ▸ hlt) (String.lt_irrefl _)
      · intro hvalue
        exact .inl (Prod.ext hkey (Option.some.inj hvalue).symm)
    · rw [if_neg hkey]
      refine or_iff_right fun heq => hkey ?_
      rw [← heq]

private theorem contains_foldl {entries : List (String × α)} {m : SortedMap α} {key : String} :
    (entries.foldl (fun m entry => m.insert entry.1 entry.2) m).contains key ↔
      key ∈ entries.map Prod.fst ∨ m.contains key := by
  induction entries generalizing m with
  | nil => simp
  | cons entry entries ih =>
    have hinsert : (m.insert entry.1 entry.2).contains key ↔ key = entry.1 ∨ m.contains key := by
      rw [contains, get?_insert]
      split
      next heq => simp [heq]
      next hne => simp [hne, contains]
    rw [List.foldl_cons, ih, hinsert, List.map_cons, List.mem_cons, or_left_comm, or_assoc]

/-- The keys of collected entries are kept. -/
theorem contains_ofList {entries : List (String × α)} {key : String} :
    (ofList entries).contains key ↔ key ∈ entries.map Prod.fst := by
  rw [ofList, contains_foldl]
  exact or_iff_left Bool.false_ne_true

end SortedMap

theorem NameSet.contains_ofNames {names : List String} {name : String} :
    (NameSet.ofNames names).contains name ↔ name ∈ names := by
  rw [ofNames, SortedMap.contains_ofList, List.map_map]
  exact iff_of_eq (congrArg (name ∈ ·) (List.map_id names))

end TreeScript
