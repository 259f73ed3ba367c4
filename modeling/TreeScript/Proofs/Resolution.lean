import TreeScript.Proofs.Linking
import TreeScript.Proofs.SortedMap

/-!
# Resolving any fixups

What resolving does to a state of any kind, also to one that lowering does not lead to: fixups may wait
at addresses without a pending goto, several of them at one address, and for any label.

* `Obstructs` says why a fixup stops the resolving. It looks at the code as it was in the beginning, and
  at the fixups before.
* `Aimed` says what the fixups that were passed have done to the code.
* `resolve_exact` says what is left of a state, and what is reported.
-/

namespace TreeScript

namespace Instruction

theorem isPatchable_withTarget (instruction : Instruction) (target : Nat) :
    (instruction.withTarget target).isPatchable = instruction.isPatchable := by
  cases instruction <;> rfl

theorem target?_withTarget {instruction : Instruction} (h : instruction.isPatchable) (target : Nat) :
    (instruction.withTarget target).target? = some target := by
  cases instruction with
  | condJump | goto | assert => rfl
  | _ => cases h

end Instruction

namespace Lowering

/-! ## 1. Obstacles -/

section Fixups

variable (labels : SortedMap Nat)

/-- The fault that stops a fixup behind others. Its label is known, but there is no pending target at
its address: there may have been none from the beginning, or a fixup before has set it. -/
inductive Obstructs (code : Code) (before : List Fixup) (fixup : Fixup) : Fault → Prop where
  | outOfRange (known : labels.contains fixup.label) (absent : code[fixup.address]? = none) :
    Obstructs code before fixup (.outOfRange fixup.address)
  | notPatchable {instruction : Instruction} (known : labels.contains fixup.label)
    (there : code[fixup.address]? = some instruction) (plain : ¬ instruction.isPatchable) :
    Obstructs code before fixup (.notPatchable fixup.address)
  | alreadyPatched {instruction : Instruction} (known : labels.contains fixup.label)
    (there : code[fixup.address]? = some instruction) (patchable : instruction.isPatchable)
    (set : instruction.target?.isSome ∨
      ∃ earlier ∈ before, earlier.address = fixup.address ∧ labels.contains earlier.label) :
    Obstructs code before fixup (.alreadyPatched fixup.address)

/-- Fixups none of which is stopped. -/
def Unobstructed (code : Code) (fixups : List Fixup) : Prop :=
  ∀ before fixup behind, fixups = before ++ fixup :: behind →
    ∀ fault, ¬ Obstructs labels code before fixup fault

/-- The result after some fixups have been passed, with those that are left. -/
inductive Outcome (code : Code) (passed : List Fixup) : List Fixup → Except Fault Unit → Prop where
  | complete : Outcome code passed [] (.ok ())
  | stopped {fixup : Fixup} {fault : Fault} (behind : List Fixup)
    (obstacle : Obstructs labels code passed fixup fault) :
    Outcome code passed (fixup :: behind) (.error fault)

/-- What fixups do to code. Those with a known label find a pending target each, and set it. The other
operands of the instruction stay. -/
structure Aimed (fixups : List Fixup) (code code' : Code) : Prop where
  set : ∀ fixup ∈ fixups, ∀ target, labels.get? fixup.label = some target →
    ∃ old new, code[fixup.address]? = some old ∧ old.isPatchable ∧ old.target? = none ∧
      code'[fixup.address]? = some new ∧ new.target? = some target ∧ unpatched new = unpatched old
  kept : ∀ address, (∀ fixup ∈ fixups, labels.contains fixup.label → fixup.address ≠ address) →
    code'[address]? = code[address]?

/-- The code with the target of a fixup set, if its label is known. -/
def aim (code : Code) (fixup : Fixup) : Code :=
  (labels.get? fixup.label).elim code fun target => code.modify fixup.address (·.withTarget target)

/-- The code with the targets of fixups set. -/
def aimAll (code : Code) (fixups : List Fixup) : Code :=
  fixups.foldl (aim labels) code

end Fixups

variable {labels : SortedMap Nat} {code : Code} {before : List Fixup} {fixup : Fixup} {fault : Fault}

/-- A fixup that is not stopped, and whose label is known, finds a target that is pending, and that is
left to it by the fixups before. -/
theorem exists_pending (h : ∀ fault, ¬ Obstructs labels code before fixup fault)
    (hknown : labels.contains fixup.label) :
    ∃ instruction, code[fixup.address]? = some instruction ∧
      instruction.isPatchable ∧ instruction.target? = none ∧
      ∀ earlier ∈ before, labels.contains earlier.label → earlier.address ≠ fixup.address := by
  cases hthere : code[fixup.address]? with
  | none => exact absurd (.outOfRange hknown hthere) (h _)
  | some instruction =>
    by_cases hpatchable : instruction.isPatchable
    · refine ⟨instruction, rfl, hpatchable, ?_, fun earlier hmem hearlier haddress => ?_⟩
      · apply Option.not_isSome_iff_eq_none.1
        intro hset
        exact h _ (.alreadyPatched hknown hthere hpatchable (.inl hset))
      · exact h _ (.alreadyPatched hknown hthere hpatchable
          (.inr ⟨earlier, hmem, haddress, hearlier⟩))
    · exact absurd (.notPatchable hknown hthere hpatchable) (h _)

/-- Only the instruction at the address counts, and the fixups before that have set its target. -/
theorem Obstructs.congr {code' : Code} {before' : List Fixup}
    (h : Obstructs labels code before fixup fault)
    (hcode : code'[fixup.address]? = code[fixup.address]?)
    (hbefore : ∀ earlier ∈ before, earlier.address = fixup.address → labels.contains earlier.label →
      earlier ∈ before') :
    Obstructs labels code' before' fixup fault := by
  cases h with
  | outOfRange known absent => exact .outOfRange known (hcode.trans absent)
  | notPatchable known there plain => exact .notPatchable known (hcode.trans there) plain
  | alreadyPatched known there patchable set =>
    refine .alreadyPatched known (hcode.trans there) patchable (set.imp_right ?_)
    rintro ⟨earlier, hmem, haddress, hearlier⟩
    exact ⟨earlier, hbefore earlier hmem haddress hearlier, haddress, hearlier⟩

/-! ## 2. Setting targets -/

section Targets

variable {address target : Nat}

theorem getElem?_aim_of_known (h : labels.get? fixup.label = some target) :
    (aim labels code fixup)[fixup.address]? =
      code[fixup.address]?.map fun instruction => instruction.withTarget target := by
  rw [aim, h, Option.elim_some, Array.getElem?_modify, if_pos rfl]

theorem getElem?_aim_of_ne (h : labels.contains fixup.label → fixup.address ≠ address) :
    (aim labels code fixup)[address]? = code[address]? := by
  unfold aim
  cases hknown : labels.get? fixup.label with
  | none => rfl
  | some target =>
    have hne := h (Option.isSome_of_mem hknown)
    rw [Option.elim_some, Array.getElem?_modify, if_neg hne]

theorem getElem?_aimAll_of_ne {fixups : List Fixup}
    (h : ∀ fixup ∈ fixups, labels.contains fixup.label → fixup.address ≠ address) :
    (aimAll labels code fixups)[address]? = code[address]? := by
  induction fixups generalizing code with
  | nil => rfl
  | cons fixup fixups ih =>
    obtain ⟨hfirst, hrest⟩ := List.forall_mem_cons.1 h
    rw [aimAll, List.foldl_cons, ← aimAll, ih hrest, getElem?_aim_of_ne hfirst]

/-- Where a target is pending, it is set as by a patch. -/
theorem aim_eq_setIfInBounds {instruction : Instruction} (hknown : labels.get? fixup.label = some target)
    (hthere : code[fixup.address]? = some instruction) :
    aim labels code fixup = code.setIfInBounds fixup.address (instruction.withTarget target) := by
  have hlt := (Array.getElem?_eq_some_iff.1 hthere).1
  apply Array.ext_getElem?
  intro i
  rw [Array.getElem?_setIfInBounds]
  by_cases hi : fixup.address = i
  · subst hi
    rw [getElem?_aim_of_known hknown, hthere, if_pos rfl, if_pos hlt, Option.map_some]
  · rw [getElem?_aim_of_ne fun _ => hi, if_neg hi]

end Targets

/-- To those behind it is the same whether a fixup stands before them or has set its target. -/
theorem obstructs_cons {first : Fixup} :
    Obstructs labels code (first :: before) fixup fault ↔
      Obstructs labels (aim labels code first) before fixup fault := by
  by_cases hsame : labels.contains first.label ∧ first.address = fixup.address
  · obtain ⟨hfirst, haddress⟩ := hsame
    obtain ⟨target, htarget⟩ := Option.isSome_iff_exists.1 hfirst
    have haimed := @getElem?_aim_of_known _ code _ _ htarget
    rw [haddress] at haimed
    constructor
    · intro h
      cases h with
      | outOfRange known absent =>
        rw [absent] at haimed
        exact .outOfRange known haimed
      | notPatchable known there plain =>
        rw [there] at haimed
        exact .notPatchable known haimed (by rwa [Instruction.isPatchable_withTarget])
      | alreadyPatched known there patchable _ =>
        rw [there] at haimed
        refine .alreadyPatched known haimed (by rwa [Instruction.isPatchable_withTarget]) (.inl ?_)
        rw [Instruction.target?_withTarget patchable]
        rfl
    · intro h
      cases h with
      | outOfRange known absent =>
        exact .outOfRange known (Option.map_eq_none_iff.1 (haimed.symm.trans absent))
      | notPatchable known there plain =>
        obtain ⟨instruction, hthere, rfl⟩ := Option.map_eq_some_iff.1 (haimed.symm.trans there)
        rw [Instruction.isPatchable_withTarget] at plain
        exact .notPatchable known hthere plain
      | alreadyPatched known there patchable _ =>
        obtain ⟨instruction, hthere, rfl⟩ := Option.map_eq_some_iff.1 (haimed.symm.trans there)
        rw [Instruction.isPatchable_withTarget] at patchable
        exact .alreadyPatched known hthere patchable
          (.inr ⟨first, List.mem_cons_self, haddress, hfirst⟩)
  · -- the first fixup has nothing to do with the address
    have hkept : (aim labels code first)[fixup.address]? = code[fixup.address]? :=
      getElem?_aim_of_ne fun hfirst haddress => hsame ⟨hfirst, haddress⟩
    constructor
    · intro h
      refine h.congr hkept fun earlier hmem haddress hearlier => ?_
      rcases List.mem_cons.1 hmem with rfl | hmem
      · exact absurd ⟨hearlier, haddress⟩ hsame
      · exact hmem
    · intro h
      exact h.congr hkept.symm fun earlier hmem _ _ => List.mem_cons_of_mem _ hmem

theorem unobstructed_nil : Unobstructed labels code [] := by
  intro before fixup behind hsplit
  cases before <;> cases hsplit

theorem Unobstructed.cons {fixups : List Fixup}
    (hfirst : ∀ fault, ¬ Obstructs labels code [] fixup fault)
    (hrest : Unobstructed labels (aim labels code fixup) fixups) :
    Unobstructed labels code (fixup :: fixups) := by
  intro before other behind hsplit
  cases before with
  | nil =>
    cases hsplit
    exact hfirst
  | cons first before =>
    obtain ⟨rfl, hfixups⟩ := List.cons.inj hsplit
    intro fault h
    exact hrest before other behind hfixups fault (obstructs_cons.1 h)

theorem Outcome.cons {passed rest : List Fixup} {result : Except Fault Unit}
    (h : Outcome labels (aim labels code fixup) passed rest result) :
    Outcome labels code (fixup :: passed) rest result := by
  cases h with
  | complete => exact .complete
  | stopped behind obstacle => exact .stopped behind (obstructs_cons.2 obstacle)

/-- No two fixups that are passed set the same target. -/
theorem Unobstructed.aimed {fixups : List Fixup} (h : Unobstructed labels code fixups) :
    Aimed labels fixups code (aimAll labels code fixups) := by
  refine ⟨fun fixup hmem target htarget => ?_, fun address hne => getElem?_aimAll_of_ne hne⟩
  obtain ⟨before, behind, rfl⟩ := List.append_of_mem hmem
  have hknown : labels.contains fixup.label := Option.isSome_of_mem htarget
  obtain ⟨instruction, hthere, hpatchable, hpending, hbefore⟩ :=
    exists_pending (h before fixup behind rfl) hknown
  refine ⟨instruction, instruction.withTarget target, hthere, hpatchable, hpending, ?_,
    Instruction.target?_withTarget hpatchable target, unpatched_withTarget _ _⟩
  have hbehind : ∀ later ∈ behind, labels.contains later.label → later.address ≠ fixup.address := by
    intro later hlater hknown'
    obtain ⟨between, rest, rfl⟩ := List.append_of_mem hlater
    obtain ⟨_, _, _, _, hearlier⟩ :=
      exists_pending (h (before ++ fixup :: between) later rest (by simp)) hknown'
    exact (hearlier fixup (by simp) hknown).symm
  calc (aimAll labels code (before ++ fixup :: behind))[fixup.address]?
      = (aimAll labels (aim labels (aimAll labels code before) fixup) behind)[fixup.address]? := by
        rw [aimAll, List.foldl_append, List.foldl_cons, ← aimAll, ← aimAll]
    _ = (aim labels (aimAll labels code before) fixup)[fixup.address]? := getElem?_aimAll_of_ne hbehind
    _ = some (instruction.withTarget target) := by
        rw [getElem?_aim_of_known htarget, getElem?_aimAll_of_ne hbefore, hthere, Option.map_some]

/-! ## 3. Resolving -/

theorem patch_of_obstructs {s : State} (h : Obstructs labels s.code [] fixup fault) (target : Nat) :
    s.patch fixup.address target = .error fault := by
  unfold State.patch
  cases h with
  | outOfRange known absent => rw [absent]
  | notPatchable known there plain => simp [there, plain]
  | alreadyPatched known there patchable set =>
    have hset := set.resolve_right (by simp)
    simp [there, patchable, hset]

theorem patch_of_pending {s : State} {target : Nat} (hknown : labels.get? fixup.label = some target)
    (h : ∀ fault, ¬ Obstructs labels s.code [] fixup fault) :
    s.patch fixup.address target = .ok { s with code := aim labels s.code fixup } := by
  obtain ⟨instruction, hthere, hpatchable, hpending, _⟩ :=
    exists_pending h (Option.isSome_of_mem hknown)
  rw [aim_eq_setIfInBounds hknown hthere]
  simp [State.patch, hthere, hpatchable, hpending]

theorem link_run_of_obstructs {s : State} (h : Obstructs labels s.code [] fixup fault) :
    (link labels fixup).run s = (.error fault, s) := by
  have hknown : labels.contains fixup.label := by cases h <;> assumption
  obtain ⟨target, htarget⟩ := Option.isSome_iff_exists.1 hknown
  unfold link
  simp only [htarget, patch_run, patch_of_obstructs h]

theorem link_run_of_unobstructed {s : State}
    (h : ∀ fault, ¬ Obstructs labels s.code [] fixup fault) :
    (link labels fixup).run s =
      (.ok (), { s with
        code := aim labels s.code fixup
        diagnostics := s.diagnostics.reportAll (undefinedRemarks labels fixup) }) := by
  unfold link undefinedRemarks SortedMap.contains
  cases hknown : labels.get? fixup.label with
  | some target =>
    simp only [patch_run, patch_of_pending hknown h]
    rfl
  | none =>
    have hsame : aim labels s.code fixup = s.code := by rw [aim, hknown, Option.elim_none]
    simp only [hsame, Stoppable.run_liftM, report_apply]
    simp [State.extend]

/-- Fixups are passed up to the first that is stopped. -/
theorem forM_link_splits (fixups : List Fixup) (s : State) :
    ∃ passed rest result, fixups = passed ++ rest ∧ Unobstructed labels s.code passed ∧
      Outcome labels s.code passed rest result ∧
      (fixups.forM (link labels)).run s =
        (result, { s with
          code := aimAll labels s.code passed
          diagnostics := s.diagnostics.reportAll (passed.flatMap (undefinedRemarks labels)) }) := by
  -- the code changes from fixup to fixup, and `obstructs_cons` brings back what it was in the beginning
  induction fixups generalizing s with
  | nil => exact ⟨[], [], .ok (), rfl, unobstructed_nil, .complete, rfl⟩
  | cons fixup fixups ih =>
    change ∃ passed rest result, _ ∧ _ ∧ _ ∧
      (do link labels fixup; fixups.forM (link labels) : Lower Unit).run s = _
    rw [Stoppable.run_bind]
    by_cases hstop : ∃ fault, Obstructs labels s.code [] fixup fault
    · obtain ⟨fault, hfault⟩ := hstop
      refine ⟨[], fixup :: fixups, .error fault, rfl, unobstructed_nil, .stopped fixups hfault, ?_⟩
      rw [link_run_of_obstructs hfault]
      rfl
    · have hpass := not_exists.1 hstop
      rw [link_run_of_unobstructed hpass]
      obtain ⟨passed, rest, result, rfl, hpassed, houtcome, hrun⟩ := ih { s with
        code := aim labels s.code fixup
        diagnostics := s.diagnostics.reportAll (undefinedRemarks labels fixup) }
      refine ⟨fixup :: passed, rest, result, rfl, .cons hpass hpassed, houtcome.cons, ?_⟩
      simp only
      rw [hrun, List.flatMap_cons, Diagnostics.reportAll_append]
      rfl

/-! ## 4. Labels that are not used -/

theorem unusedLabels_perm (order : LabelOrder) (labels : SortedMap Nat) (fixups : List Fixup) :
    (unusedLabels order labels fixups).Perm (labels.entries.filter fun label =>
      !(NameSet.ofNames (fixups.map Fixup.label)).contains label.1) :=
  (List.mergeSort_perm _ _).trans ((order.perm labels).filter _)

theorem mem_unusedLabels {order : LabelOrder} {fixups : List Fixup} {label : String}
    {address : Nat} :
    (label, address) ∈ unusedLabels order labels fixups ↔
      labels.get? label = some address ∧ ∀ fixup ∈ fixups, fixup.label ≠ label := by
  rw [(unusedLabels_perm order labels fixups).mem_iff, List.mem_filter, SortedMap.mem_entries]
  refine and_congr_right fun _ => ?_
  rw [Bool.not_eq_true', ← Bool.not_eq_true, NameSet.contains_ofNames, List.mem_map]
  simp only [not_exists, not_and]

theorem nodup_unusedLabels (order : LabelOrder) (labels : SortedMap Nat) (fixups : List Fixup) :
    (unusedLabels order labels fixups).Nodup := by
  refine (unusedLabels_perm order labels fixups).nodup_iff.2 (List.Pairwise.filter _ ?_)
  refine labels.sorted.imp fun hlt heq => ?_
  rw [heq] at hlt
  exact String.lt_irrefl _ hlt

theorem unusedLabels_pairwise (order : LabelOrder) (labels : SortedMap Nat) (fixups : List Fixup) :
    (unusedLabels order labels fixups).Pairwise fun a b => a.2 ≤ b.2 := by
  refine (List.pairwise_mergeSort ?_ ?_ _).imp of_decide_eq_true
  · intro a b c hab hbc
    simp only [decide_eq_true_eq] at hab hbc ⊢
    omega
  · intro a b
    simp only [Bool.or_eq_true, decide_eq_true_eq]
    omega

/-! ## 5. The state afterwards -/

/-- The fixups whose labels are not known. -/
def undefinedAmong (labels : SortedMap Nat) (fixups : List Fixup) : List Fixup :=
  fixups.filter fun fixup => !labels.contains fixup.label

theorem flatMap_undefinedRemarks (labels : SortedMap Nat) (fixups : List Fixup) :
    fixups.flatMap (undefinedRemarks labels) =
      (undefinedAmong labels fixups).map fun fixup =>
        .labelUndefined fixup.address fixup.label := by
  induction fixups with
  | nil => rfl
  | cons fixup fixups ih =>
    rw [List.flatMap_cons, ih, undefinedAmong, undefinedAmong, List.filter_cons, undefinedRemarks]
    cases labels.contains fixup.label <;> rfl

/-- The labels that are not used are reported if no fixup is left. -/
theorem resolve_splits (s : State) :
    ∃ passed rest result, s.fixups.toList = passed ++ rest ∧ Unobstructed s.labels s.code passed ∧
      Outcome s.labels s.code passed rest result ∧
      resolve.run s =
        (result, { s with
          code := aimAll s.labels s.code passed
          fixups := #[]
          diagnostics := s.diagnostics.reportAll (passed.flatMap (undefinedRemarks s.labels) ++
            if rest = [] then unusedRemarks s.order s.labels s.fixups.toList else []) }) := by
  obtain ⟨passed, rest, result, hsplit, hpassed, houtcome, hrun⟩ :=
    @forM_link_splits s.labels s.fixups.toList { s with fixups := #[] }
  refine ⟨passed, rest, result, hsplit, hpassed, houtcome, ?_⟩
  rw [resolve_run_eq, Stoppable.run_bind, hrun]
  cases houtcome with
  | complete =>
    simp only [forM_report_run, State.extend, unusedRemarks, Diagnostics.reportAll_append,
      Array.append_empty, if_pos]
  | stopped behind obstacle =>
    rw [if_neg (List.cons_ne_nil _ _), List.append_nil]

/-- Resolving does its job, also when it stops. The fixups are passed in order up to the first that is
stopped, and are pending no longer. Those that are passed have their targets set, or are reported if
their labels are not known. If all are passed, the labels that none of them asked for are reported. -/
theorem resolve_exact (s : State) :
    ∃ passed rest : List Fixup, ∃ unused : List (String × Nat),
      s.fixups.toList = passed ++ rest ∧ Unobstructed s.labels s.code passed ∧
      Outcome s.labels s.code passed rest (resolve.run s).1 ∧
      Aimed s.labels passed s.code (resolve.run s).2.code ∧
      (resolve.run s).2.labels = s.labels ∧ (resolve.run s).2.fixups = #[] ∧
      (∀ label address, (label, address) ∈ unused ↔
        rest = [] ∧ s.labels.get? label = some address ∧
          ∀ fixup ∈ s.fixups.toList, fixup.label ≠ label) ∧
      unused.Nodup ∧ (unused.Pairwise fun a b => a.2 ≤ b.2) ∧
      (resolve.run s).2.diagnostics.entries.toList = s.diagnostics.entries.toList ++
        (undefinedAmong s.labels passed).map (fun fixup =>
          .labelUndefined fixup.address fixup.label) ++
        unused.map (fun label => .labelUnused label.1 label.2) ∧
      (resolve.run s).2.diagnostics.errors =
        s.diagnostics.errors + (undefinedAmong s.labels passed).length ∧
      (resolve.run s).2.diagnostics.warnings = s.diagnostics.warnings + unused.length := by
  obtain ⟨passed, rest, result, hsplit, hpassed, houtcome, hrun⟩ := resolve_splits s
  rw [hrun, flatMap_undefinedRemarks]
  have hundefined := Diagnostics.counts_reportAll_errors
    (fun fixup : Fixup => (rfl : (Diagnostic.labelUndefined fixup.address fixup.label).severity = _))
    (undefinedAmong s.labels passed) s.diagnostics
  by_cases hrest : rest = []
  · refine ⟨passed, rest, unusedLabels s.order s.labels s.fixups.toList, hsplit, hpassed, houtcome,
      hpassed.aimed, rfl, rfl, fun label address => ?_, nodup_unusedLabels _ _ _,
      unusedLabels_pairwise _ _ _, ?_, ?_⟩
    · rw [mem_unusedLabels, and_iff_right hrest]
    · simp only [if_pos hrest, Diagnostics.entries_reportAll, Array.toList_append, unusedRemarks,
        List.append_assoc]
    · have hunused := Diagnostics.counts_reportAll_warnings
        (fun label : String × Nat => (rfl : (Diagnostic.labelUnused label.1 label.2).severity = _))
        (unusedLabels s.order s.labels s.fixups.toList)
      simp only [if_pos hrest, Diagnostics.reportAll_append, unusedRemarks, hunused, hundefined,
        and_self]
  · refine ⟨passed, rest, [], hsplit, hpassed, houtcome, hpassed.aimed, rfl, rfl,
      fun label address => ?_, List.nodup_nil, List.Pairwise.nil, ?_, ?_⟩
    · exact iff_of_false List.not_mem_nil fun h => hrest h.1
    · simp only [if_neg hrest, Diagnostics.entries_reportAll, Array.toList_append, List.append_nil,
        List.map_nil]
    · simp only [if_neg hrest, List.append_nil]
      exact hundefined

/-- A second fixup at an address finds the target set by the first. -/
example :
    let twice : State := {
      code := #[.goto "top" none], labels := .ofList [("top", 0), ("spare", 0)]
      fixups := #[⟨"top", 0⟩, ⟨"lost", 7⟩, ⟨"top", 0⟩] }
    let ended := resolve.run twice
    ended.1 = .error (.alreadyPatched 0) ∧ ended.2.code = #[.goto "top" (some 0)] ∧
      ended.2.diagnostics.entries = #[.labelUndefined 7 "lost"] :=
  ⟨rfl, rfl, rfl⟩

end Lowering

end TreeScript
