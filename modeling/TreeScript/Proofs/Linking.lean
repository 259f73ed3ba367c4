import TreeScript.Proofs.Lowering

/-!
# Linking gotos to labels

Fixups that wait at pending gotos, each at a goto of its own, are resolved without a fault: every
goto whose label is known gets the address of the label, and every other fixup is reported.
-/

namespace TreeScript

/-- The instruction with the target of its label, if it is a goto that has none yet. -/
def Instruction.link (labels : SortedMap Nat) : Instruction → Instruction
  | .goto label none => .goto label (labels.get? label)
  | other => other

theorem Instruction.link_link (labels : SortedMap Nat) (instruction : Instruction) :
    (instruction.link labels).link labels = instruction.link labels := by
  cases instruction with
  | goto label target =>
    cases target with
    | some target => rfl
    | none => cases hlabel : labels.get? label <;> simp only [link, hlabel]
  | _ => rfl

theorem Instruction.link_of_goto?_eq_none {instruction : Instruction}
    (h : instruction.goto? = none) (labels : SortedMap Nat) :
    instruction.link labels = instruction := by
  cases instruction with
  | goto => cases h
  | _ => rfl

/-- Linking keeps gotos and their labels, and a target that is set. -/
theorem Instruction.goto?_link (labels : SortedMap Nat) (instruction : Instruction) :
    (instruction.link labels).goto? =
      instruction.goto?.map fun goto => (goto.1, goto.2.or (labels.get? goto.1)) := by
  cases instruction with
  | goto label target => cases target <;> rfl
  | _ => rfl

namespace Lowering

/-! ## 1. Code with linked gotos -/

theorem gotosFrom_map_link (labels : SortedMap Nat) (base : Nat) (code : List Instruction) :
    gotosFrom base (code.map (Instruction.link labels)) =
      (gotosFrom base code).map fun goto =>
        (goto.1, goto.2.1, goto.2.2.or (labels.get? goto.2.1)) := by
  rw [gotosFrom, List.zipIdx_map, List.filterMap_map, gotosFrom, List.map_filterMap]
  congr 1
  funext entry
  simp only [Function.comp_apply, Prod.map_fst, Prod.map_snd, Instruction.goto?_link,
    Option.map_map, id_eq]
  rfl

/-- Links the goto at the address of a fixup. -/
def linkAt (labels : SortedMap Nat) (code : Code) (fixup : Fixup) : Code :=
  code.modify fixup.address (Instruction.link labels)

/-- Links the gotos at the addresses of fixups. -/
def linkAll (labels : SortedMap Nat) (code : Code) (fixups : List Fixup) : Code :=
  fixups.foldl (linkAt labels) code

theorem size_linkAll (labels : SortedMap Nat) (code : Code) (fixups : List Fixup) :
    (linkAll labels code fixups).size = code.size := by
  induction fixups generalizing code with
  | nil => rfl
  | cons fixup fixups ih => rw [linkAll, List.foldl_cons, ← linkAll, ih, linkAt, Array.size_modify]

theorem getElem?_linkAll (labels : SortedMap Nat) (code : Code) (fixups : List Fixup) (i : Nat) :
    (linkAll labels code fixups)[i]? =
      if ∃ fixup ∈ fixups, fixup.address = i then code[i]?.map (Instruction.link labels)
      else code[i]? := by
  induction fixups generalizing code with
  | nil => simp [linkAll]
  | cons fixup fixups ih =>
    rw [linkAll, List.foldl_cons, ← linkAll, ih, linkAt, Array.getElem?_modify]
    by_cases hfirst : fixup.address = i
    · -- a second fixup at the address would find the goto linked
      by_cases hrest : ∃ fixup ∈ fixups, fixup.address = i
      · simp [hfirst, hrest, Function.comp_def, Instruction.link_link]
      · simp [hfirst, hrest]
    · simp [hfirst]

/-- Linking at fixups links all of a code if there is one for each of its gotos. -/
theorem linkAll_eq_map (labels : SortedMap Nat) (code : Code) (fixups : List Fixup)
    (h : ∀ i label target, code[i]? = some (.goto label target) →
      ∃ fixup ∈ fixups, fixup.address = i) :
    linkAll labels code fixups = code.map (Instruction.link labels) := by
  apply Array.ext_getElem?
  intro i
  rw [getElem?_linkAll, Array.getElem?_map]
  split
  next => rfl
  next hnone =>
    cases hat : code[i]? with
    | none => rfl
    | some instruction =>
      have hgoto : instruction.goto? = none := by
        cases hgoto : instruction.goto? with
        | none => rfl
        | some goto =>
          exact absurd (h i _ _ (hat.trans (congrArg some (Instruction.goto?_eq_some hgoto)))) hnone
      rw [Option.map_some, Instruction.link_of_goto?_eq_none hgoto]

/-! ## 2. Resolving -/

/-- Fixups that wait at pending gotos, each at a goto of its own. -/
structure Waiting (code : Code) (fixups : List Fixup) : Prop where
  pending : ∀ fixup ∈ fixups, code[fixup.address]? = some (.goto fixup.label none)
  distinct : fixups.Pairwise (fun a b => a.address ≠ b.address)

theorem waiting_nil (code : Code) : Waiting code [] := by
  refine ⟨fun fixup h => ?_, List.Pairwise.nil⟩
  cases h

/-- Fixups go on waiting while code is appended, and so do new ones at the gotos of that code. -/
theorem Waiting.advance {s : State} (h : Waiting s.code s.fixups.toList)
    {places : List (Nat × Node)} {code : List Instruction}
    (hgotos : gotosFrom s.code.size code = places.filterMap gotoAt?) :
    Waiting (s.advance places code).code (s.advance places code).fixups.toList := by
  have hfixups : (s.advance places code).fixups.toList = s.fixups.toList ++ awaited places := by
    simp only [State.advance, Array.toList_append]
  have hold : ∀ fixup ∈ s.fixups.toList, fixup.address < s.code.size := fun fixup hmem =>
    (Array.getElem?_eq_some_iff.1 (h.pending fixup hmem)).1
  have hnew : ∀ fixup ∈ awaited places, s.code.size ≤ fixup.address ∧
      code[fixup.address - s.code.size]? = some (.goto fixup.label none) := by
    intro fixup hmem
    have hgoto := mem_awaited hmem
    rwa [← hgotos, mem_gotosFrom] at hgoto
  rw [hfixups]
  refine ⟨fun fixup hmem => ?_, List.pairwise_append.2 ⟨h.distinct, ?_, fun old ho new hn => ?_⟩⟩
  · change (s.code ++ code.toArray)[fixup.address]? = _
    rcases List.mem_append.1 hmem with hmem | hmem
    · rw [Array.getElem?_append_left (hold fixup hmem), h.pending fixup hmem]
    · obtain ⟨hle, hat⟩ := hnew fixup hmem
      rw [Array.getElem?_append_right hle, List.getElem?_toArray, hat]
  · have hascending := gotosFrom_pairwise s.code.size code
    rw [hgotos] at hascending
    exact (awaited_pairwise hascending).imp Nat.ne_of_lt
  · -- the new gotos stand behind the code in which the old ones stand
    have hlt := hold old ho
    have hle := (hnew new hn).1
    omega

/-- Linking one fixup keeps the others waiting. -/
theorem Waiting.tail {code : Code} {fixup : Fixup} {fixups : List Fixup}
    (h : Waiting code (fixup :: fixups)) (labels : SortedMap Nat) :
    Waiting (linkAt labels code fixup) fixups := by
  obtain ⟨hother, hrest⟩ := List.pairwise_cons.1 h.distinct
  refine ⟨fun other hmem => ?_, hrest⟩
  rw [linkAt, Array.getElem?_modify, if_neg (hother other hmem)]
  exact h.pending other (List.mem_cons_of_mem _ hmem)

/-- The report on a fixup whose label is not known. -/
def undefinedRemarks (labels : SortedMap Nat) (fixup : Fixup) : List Diagnostic :=
  if labels.contains fixup.label then [] else [.labelUndefined fixup.address fixup.label]

/-- The reports on labels that no fixup asks for. -/
def unusedRemarks (order : LabelOrder) (labels : SortedMap Nat) (fixups : List Fixup) :
    List Diagnostic :=
  (unusedLabels order labels fixups).map fun label => .labelUnused label.1 label.2

theorem linkAt_pending {labels : SortedMap Nat} {fixup : Fixup} {code : Code}
    (h : code[fixup.address]? = some (.goto fixup.label none)) :
    linkAt labels code fixup =
      code.setIfInBounds fixup.address (.goto fixup.label (labels.get? fixup.label)) := by
  apply Array.ext_getElem?
  intro i
  rw [linkAt, Array.getElem?_modify, Array.getElem?_setIfInBounds]
  by_cases hi : fixup.address = i
  · subst hi
    have hlt := (Array.getElem?_eq_some_iff.1 h).1
    rw [if_pos rfl, if_pos rfl, if_pos hlt, h]
    rfl
  · rw [if_neg hi, if_neg hi]

/-- A fixup that waits is linked, or reported if its label is not known. -/
theorem link_run {labels : SortedMap Nat} {fixup : Fixup} {s : State}
    (h : s.code[fixup.address]? = some (.goto fixup.label none)) :
    (link labels fixup).run s =
      (.ok (), { s with
        code := linkAt labels s.code fixup
        diagnostics := s.diagnostics.reportAll (undefinedRemarks labels fixup) }) := by
  rw [linkAt_pending h]
  unfold link undefinedRemarks SortedMap.contains
  cases hknown : labels.get? fixup.label with
  | some target =>
    simp only [patch_run, State.patch, h]
    rfl
  | none =>
    -- a goto without a known label is written back as it was
    have hsame : s.code.setIfInBounds fixup.address (.goto fixup.label none) = s.code := by
      obtain ⟨hlt, hat⟩ := Array.getElem?_eq_some_iff.1 h
      rw [Array.setIfInBounds, dif_pos hlt, ← hat, Array.set_getElem_self]
    simp only [hsame, Stoppable.run_liftM, report_apply]
    simp [State.extend]

theorem forM_link_run {labels : SortedMap Nat} {fixups : List Fixup} {s : State}
    (h : Waiting s.code fixups) :
    (fixups.forM (link labels)).run s =
      (.ok (), { s with
        code := linkAll labels s.code fixups
        diagnostics := s.diagnostics.reportAll (fixups.flatMap (undefinedRemarks labels)) }) := by
  induction fixups generalizing s with
  | nil => rfl
  | cons fixup fixups ih =>
    change (do link labels fixup; fixups.forM (link labels) : Lower Unit).run s = _
    rw [Stoppable.run_bind, link_run (h.pending fixup List.mem_cons_self)]
    simp only
    rw [ih (h.tail labels), List.flatMap_cons, Diagnostics.reportAll_append]
    rfl

theorem forM_report_run {α : Type} (f : α → Diagnostic) (xs : List α) (s : State) :
    (xs.forM fun x => (report (f x) : Lower Unit)).run s = (.ok (), s.extend [] (xs.map f)) := by
  induction xs generalizing s with
  | nil => exact congrArg (Prod.mk _) (State.extend_nil s).symm
  | cons x xs ih =>
    change (do report (f x); xs.forM fun x => report (f x) : Lower Unit).run s = _
    rw [Stoppable.run_bind, Stoppable.run_liftM, report_apply]
    simp only [ih, State.extend_extend, List.append_nil, List.singleton_append, List.map_cons]

/-- The fixups are taken out of the state before the first of them is looked at. -/
theorem resolve_run_eq (s : State) :
    resolve.run s = (do
      s.fixups.toList.forM (link s.labels)
      (unusedLabels s.order s.labels s.fixups.toList).forM fun label =>
        report (.labelUnused label.1 label.2) : Lower Unit).run { s with fixups := #[] } := rfl

/-- Resolving fixups that wait does not stop. -/
theorem resolve_run {s : State} (h : Waiting s.code s.fixups.toList) :
    resolve.run s =
      (.ok (), { s with
        code := linkAll s.labels s.code s.fixups.toList
        fixups := #[]
        diagnostics := s.diagnostics.reportAll
          (s.fixups.toList.flatMap (undefinedRemarks s.labels) ++
            unusedRemarks s.order s.labels s.fixups.toList) }) := by
  have hwaiting : Waiting ({ s with fixups := #[] } : State).code s.fixups.toList := h
  rw [resolve_run_eq, Stoppable.run_bind, forM_link_run hwaiting]
  simp only [forM_report_run, State.extend, unusedRemarks, Diagnostics.reportAll_append,
    Array.append_empty]

end Lowering

end TreeScript
