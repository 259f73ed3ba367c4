import TreeScript.Lowering.Step
import TreeScript.Proofs.Linking

/-!
# Growth

Whatever steps are taken from whatever state, and whether or not they stop, the state only grows: code
is appended, pending targets are set once, labels are bound once, and entries are added. Fixups are
added as well, until a resolve step takes all of them out.

* `State.Grows` is what any step does to a state.
* `State.after` is the state behind a run. A step that stops does not end the run.
-/

namespace TreeScript

open Lowering (unpatched)

/-! ## 1. Instructions -/

/-- What may become of an instruction: its target is set if it was pending. -/
structure Instruction.Becomes (old new : Instruction) : Prop where
  same : unpatched new = unpatched old
  target : ∀ target ∈ old.target?, target ∈ new.target?

namespace Instruction.Becomes

theorem refl (instruction : Instruction) : instruction.Becomes instruction :=
  ⟨rfl, fun _ h => h⟩

theorem trans {a b c : Instruction} (h : a.Becomes b) (h' : b.Becomes c) : a.Becomes c :=
  ⟨h'.same.trans h.same, fun target htarget => h'.target target (h.target target htarget)⟩

theorem withTarget {instruction : Instruction} (hpending : instruction.target? = none)
    (target : Nat) : instruction.Becomes (instruction.withTarget target) := by
  refine ⟨Lowering.unpatched_withTarget instruction target, fun set hset => ?_⟩
  cases hpending.symm.trans hset

end Instruction.Becomes

namespace Lowering

/-! ## 2. States -/

/-- What steps do to a state. Fixups are kept unless they are resolved. -/
structure State.Grows (resolved : Bool) (s s' : State) : Prop where
  code : ∀ {address : Nat} {old : Instruction}, s.code[address]? = some old →
    ∃ new, s'.code[address]? = some new ∧ old.Becomes new
  labels : ∀ {name : String} {address : Nat}, s.labels.get? name = some address →
    s'.labels.get? name = some address
  diagnostics : ∃ entries, s'.diagnostics = s.diagnostics.reportAll entries
  fixups : resolved = false → s.fixups.toList <+: s'.fixups.toList

namespace State

theorem Grows.refl (s : State) : s.Grows false s :=
  ⟨fun h => ⟨_, h, .refl _⟩, id, ⟨[], rfl⟩, fun _ => List.prefix_rfl⟩

theorem Grows.trans {resolved resolved' : Bool} {s s' s'' : State} (h : s.Grows resolved s')
    (h' : s'.Grows resolved' s'') : s.Grows (resolved || resolved') s'' where
  code hat := by
    obtain ⟨middle, hmiddle, hbecomes⟩ := h.code hat
    obtain ⟨new, hnew, hbecomes'⟩ := h'.code hmiddle
    exact ⟨new, hnew, hbecomes.trans hbecomes'⟩
  labels hlabel := h'.labels (h.labels hlabel)
  diagnostics := by
    obtain ⟨entries, hentries⟩ := h.diagnostics
    obtain ⟨entries', hentries'⟩ := h'.diagnostics
    exact ⟨entries ++ entries', by rw [hentries', hentries, Diagnostics.reportAll_append]⟩
  fixups hresolved := by
    obtain ⟨hfirst, hsecond⟩ := Bool.or_eq_false_iff.1 hresolved
    exact (h.fixups hfirst).trans (h'.fixups hsecond)

theorem getElem?_append_becomes {code : Code} {address : Nat} {instruction : Instruction}
    (h : code[address]? = some instruction) (code' : Code) :
    ∃ new, (code ++ code')[address]? = some new ∧ instruction.Becomes new := by
  have hlt := (Array.getElem?_eq_some_iff.1 h).1
  exact ⟨instruction, by rw [Array.getElem?_append_left hlt, h], .refl instruction⟩

theorem grows_extend (s : State) (code : List Instruction) (entries : List Diagnostic) :
    s.Grows false (s.extend code entries) :=
  ⟨fun h => getElem?_append_becomes h _, id, ⟨entries, rfl⟩, fun _ => List.prefix_rfl⟩

/-- Lowering nodes makes a state grow, also if it stops at one of them. -/
theorem grows_advance (s : State) (places : List (Nat × Node)) (code : List Instruction) :
    s.Grows false (s.advance places code) where
  code h := getElem?_append_becomes h _
  labels h := by rw [advance, get?_defineAll, h, Option.some_or]
  diagnostics := ⟨_, rfl⟩
  fixups _ := by
    rw [advance, Array.toList_append]
    exact List.prefix_append _ _

/-- A patch that succeeds has found a pending target. It changes nothing else. -/
theorem patch_eq_ok {s s' : State} {address target : Nat} (h : s.patch address target = .ok s') :
    ∃ instruction, s.code[address]? = some instruction ∧ instruction.target? = none ∧
      s' = { s with code := s.code.setIfInBounds address (instruction.withTarget target) } := by
  unfold State.patch at h
  cases hat : s.code[address]? with
  | none =>
    rw [hat] at h
    cases h
  | some instruction =>
    simp only [hat] at h
    split at h
    next => cases h
    next =>
      split at h
      next => cases h
      next hpending =>
        cases h
        exact ⟨instruction, rfl, Option.not_isSome_iff_eq_none.1 hpending, rfl⟩

theorem grows_of_patch {s s' : State} {address target : Nat} (h : s.patch address target = .ok s') :
    s.Grows false s' := by
  obtain ⟨instruction, hat, hpending, rfl⟩ := patch_eq_ok h
  refine ⟨fun {other old} hold => ?_, id, ⟨[], rfl⟩, fun _ => List.prefix_rfl⟩
  by_cases hother : address = other
  · -- the instruction at the address is the one that is patched
    subst hother
    cases hat.symm.trans hold
    have hlt := (Array.getElem?_eq_some_iff.1 hat).1
    refine ⟨instruction.withTarget target, ?_, .withTarget hpending target⟩
    rw [Array.getElem?_setIfInBounds, if_pos rfl, if_pos hlt]
  · refine ⟨old, ?_, .refl old⟩
    rw [Array.getElem?_setIfInBounds, if_neg hother, hold]

end State

/-! ## 3. Computations -/

section Computations

variable {α β : Type} {s : State} {resolved : Bool}

/-- An answer changes no state. -/
theorem snd_run_answer (x : Lower α) (f : α → β) (s : State) :
    ((do let a ← x; return f a : Lower β).run s).2 = (x.run s).2 := by
  rw [Stoppable.run_bind]
  rcases x.run s with ⟨fault | a, s'⟩
  · rfl
  · rfl

theorem patch_grows (address target : Nat) (s : State) :
    s.Grows false ((patch address target).run s).2 := by
  rw [patch_run]
  cases hpatch : s.patch address target with
  | ok s' => exact State.grows_of_patch hpatch
  | error fault => exact .refl s

theorem define_grows (name : String) (address : Nat) (s : State) :
    s.Grows false (define name address s).2 := by
  rw [define_apply]
  refine ⟨fun h => ⟨_, h, .refl _⟩, fun {known place} hknown => ?_, ⟨[], rfl⟩,
    fun _ => List.prefix_rfl⟩
  by_cases hname : s.labels.contains name
  · simp only [if_pos hname, hknown]
  · -- a name that is not known is another one than those that are
    have hother : known ≠ name := by
      rintro rfl
      exact hname (Option.isSome_iff_exists.2 ⟨place, hknown⟩)
    simp only [if_neg hname, SortedMap.get?_insert, if_neg hother, hknown]

theorem await_grows (label : String) (address : Nat) (s : State) :
    s.Grows false (await label address s).2 := by
  rw [await_apply]
  refine ⟨fun h => ⟨_, h, .refl _⟩, id, ⟨[], rfl⟩, fun _ => ?_⟩
  rw [Array.toList_append]
  exact List.prefix_append _ _

theorem inScope_grows {body : Lower Unit}
    (h : (s.extend [.scopeEnter] []).Grows resolved (body.run (s.extend [.scopeEnter] [])).2) :
    s.Grows resolved ((inScope body).run s).2 := by
  have hall := ((s.grows_extend [.scopeEnter] []).trans h).trans
    (State.grows_extend _ [.scopeExit] [])
  rw [Bool.false_or, Bool.or_false] at hall
  rw [inScope_run]
  exact hall

/-- Linking a fixup patches its goto, reports its label, or stops. -/
theorem link_grows (labels : SortedMap Nat) (fixup : Fixup) (s : State) :
    s.Grows false ((link labels fixup).run s).2 ∧
      ((link labels fixup).run s).2.fixups = s.fixups := by
  unfold link
  cases labels.get? fixup.label with
  | some target =>
    refine ⟨patch_grows _ _ s, ?_⟩
    simp only [patch_run]
    cases hpatch : s.patch fixup.address target with
    | error fault => rfl
    | ok s' =>
      obtain ⟨instruction, -, -, rfl⟩ := State.patch_eq_ok hpatch
      rfl
  | none =>
    simp only [Stoppable.run_liftM, report_apply]
    exact ⟨s.grows_extend _ _, rfl⟩

theorem forM_link_grows (labels : SortedMap Nat) (fixups : List Fixup) (s : State) :
    s.Grows false ((fixups.forM (link labels)).run s).2 ∧
      ((fixups.forM (link labels)).run s).2.fixups = s.fixups := by
  induction fixups generalizing s with
  | nil => exact ⟨.refl s, rfl⟩
  | cons fixup fixups ih =>
    change s.Grows false ((do link labels fixup; fixups.forM (link labels) : Lower Unit).run s).2 ∧
      ((do link labels fixup; fixups.forM (link labels) : Lower Unit).run s).2.fixups = s.fixups
    obtain ⟨hgrows, hfixups⟩ := link_grows labels fixup s
    rw [Stoppable.run_bind]
    rcases hrun : (link labels fixup).run s with ⟨fault | ⟨⟩, s'⟩
    · rw [hrun] at hgrows hfixups
      exact ⟨hgrows, hfixups⟩
    · rw [hrun] at hgrows hfixups
      exact ⟨hgrows.trans (ih s').1, (ih s').2.trans hfixups⟩

/-- Resolving takes all fixups out, even if it stops at one of them. -/
theorem resolve_grows (s : State) :
    s.Grows true (resolve.run s).2 ∧ (resolve.run s).2.fixups = #[] := by
  have hcleared : s.Grows true { s with fixups := #[] } :=
    ⟨fun h => ⟨_, h, .refl _⟩, id, ⟨[], rfl⟩, fun h => by cases h⟩
  obtain ⟨hgrows, hfixups⟩ := forM_link_grows s.labels s.fixups.toList { s with fixups := #[] }
  have hlinks := hcleared.trans hgrows
  rw [resolve_run_eq, Stoppable.run_bind]
  rcases hrun : (s.fixups.toList.forM (link s.labels)).run { s with fixups := #[] } with
    ⟨fault | ⟨⟩, s'⟩
  · rw [hrun] at hlinks hfixups
    exact ⟨hlinks, hfixups⟩
  · rw [hrun] at hlinks hfixups
    simp only [forM_report_run]
    exact ⟨hlinks.trans (s'.grows_extend _ _), hfixups⟩

end Computations

/-! ## 4. Steps -/

mutual

/-- Whether fixups are resolved when a step is carried out. -/
def Step.resolves : Step → State → Bool
  | .resolve, _ => true
  | .scope body, s => resolvesWithin body (s.extend [.scopeEnter] [])
  | _, _ => false

/-- Whether fixups are resolved before the first fault of steps. -/
def resolvesWithin : List Step → State → Bool
  | [], _ => false
  | step :: steps, s =>
    step.resolves s || ((step.run.run s).1.isOk && resolvesWithin steps (step.run.run s).2)

end

theorem runAll_cons_run (step : Step) (steps : List Step) (s : State) :
    ((runAll (step :: steps)).run s).2 =
      if (step.run.run s).1.isOk then ((runAll steps).run (step.run.run s).2).2
      else (step.run.run s).2 := by
  rw [runAll, Stoppable.discard_eq, Stoppable.run_bind, Stoppable.run_bind]
  rcases step.run.run s with ⟨fault | answer, s'⟩
  · rfl
  · rfl

mutual

theorem Step.grows (step : Step) (s : State) : s.Grows (step.resolves s) (step.run.run s).2 := by
  cases step with
  | lower node =>
    rw [Step.run, snd_run_answer, lower_ends node s]
    exact s.grows_advance _ _
  | children node =>
    rw [Step.run, snd_run_answer, lowerAll_ends node.children s]
    exact s.grows_advance _ _
  | emit instruction =>
    rw [Step.run]
    exact s.grows_extend [instruction] []
  | patch address target =>
    rw [Step.run, snd_run_answer]
    exact patch_grows address target s
  | address =>
    rw [Step.run]
    exact .refl s
  | define name address =>
    rw [Step.run]
    exact define_grows name address s
  | lookup name =>
    rw [Step.run]
    exact .refl s
  | await label address =>
    rw [Step.run]
    exact await_grows label address s
  | scope body =>
    rw [Step.run, snd_run_answer, Step.resolves]
    exact inScope_grows (runAll_grows body _)
  | resolve =>
    rw [Step.run, snd_run_answer]
    exact (resolve_grows s).1

theorem runAll_grows (steps : List Step) (s : State) :
    s.Grows (resolvesWithin steps s) ((runAll steps).run s).2 := by
  cases steps with
  | nil => exact .refl s
  | cons step steps =>
    have hstep := step.grows s
    rw [runAll_cons_run, resolvesWithin]
    rcases hrun : step.run.run s with ⟨fault | answer, s'⟩
    · rw [hrun] at hstep
      exact hstep.trans (.refl s')
    · rw [hrun] at hstep
      exact hstep.trans (runAll_grows steps s')

end

/-! ## 5. Steps that fail -/

theorem patch_step_of_error {address target : Nat} {fault : Fault} {s : State}
    (h : ((Step.patch address target).run.run s).1 = .error fault) :
    ((Step.patch address target).run.run s).2 = s := by
  rw [Step.run, Stoppable.run_bind, patch_run] at h
  rw [Step.run, snd_run_answer, patch_run]
  cases hpatch : s.patch address target with
  | error fault' => rfl
  | ok s' =>
    rw [hpatch] at h
    cases h

/-- A label that is known is answered, and nothing is bound. -/
theorem define_step_of_known {name : String} {existing : Nat} {s : State}
    (h : s.labels.get? name = some existing) (address : Nat) :
    (Step.define name address).run.run s = (.ok (.existing existing), s) := by
  have hcontains : s.labels.contains name := Option.isSome_iff_exists.2 ⟨existing, h⟩
  have hrun : (Step.define name address).run.run s =
      (.ok (((define name address s).1.map .existing).getD .nothing), (define name address s).2) := by
    rw [Step.run]
    rfl
  rw [hrun, define_apply, if_pos hcontains, h]
  rfl

/-! ## 6. Runs -/

/-- The state behind steps that are taken one after the other, whether or not they stop. A scope in
which more is done behind a fault is a run of its own, which begins and ends by emitting. -/
def State.after (s : State) (steps : List Step) : State :=
  steps.foldl (fun s step => (step.run.run s).2) s

theorem State.after_cons (s : State) (step : Step) (steps : List Step) :
    s.after (step :: steps) = State.after (step.run.run s).2 steps := rfl

theorem State.after_append (s : State) (first second : List Step) :
    s.after (first ++ second) = (s.after first).after second :=
  List.foldl_append

/-- A run grows its state, and it keeps the fixups unless one of its steps resolves them. -/
theorem State.grows_after (s : State) (steps : List Step) :
    ∃ resolved, s.Grows resolved (s.after steps) ∧
      (resolved = true → ∃ before step behind,
        steps = before ++ step :: behind ∧ step.resolves (s.after before) = true) := by
  induction steps generalizing s with
  | nil => exact ⟨false, .refl s, fun h => by cases h⟩
  | cons step steps ih =>
    obtain ⟨resolved, hgrows, hresolved⟩ := ih (step.run.run s).2
    refine ⟨_, (step.grows s).trans hgrows, fun h => ?_⟩
    rcases Bool.or_eq_true_iff.1 h with hstep | hsteps
    · exact ⟨[], step, steps, rfl, hstep⟩
    · obtain ⟨before, step', behind, rfl, hstep'⟩ := hresolved hsteps
      exact ⟨step :: before, step', behind, rfl, hstep'⟩

/-- The state of lowering is append-only and write-once over any run, faults included. -/
theorem run_append_only (s : State) (steps : List Step) :
    -- an instruction keeps its address, its constructor, its operands, and a target that is set
    (∀ (address : Nat) (old : Instruction), s.code[address]? = some old →
      ∃ new, (s.after steps).code[address]? = some new ∧ unpatched new = unpatched old ∧
        ∀ target, old.target? = some target → new.target? = some target) ∧
    -- a label keeps its address
    (∀ name address, s.labels.get? name = some address →
      (s.after steps).labels.get? name = some address) ∧
    s.diagnostics.entries.toList <+: (s.after steps).diagnostics.entries.toList ∧
    -- fixups are kept until they are resolved, and then there are none
    (s.fixups.toList <+: (s.after steps).fixups.toList ∨
      ∃ before step behind, steps = before ++ step :: behind ∧ step.resolves (s.after before)) ∧
    (Step.resolve.run.run s).2.fixups = #[] ∧
    -- what fails changes nothing
    (∀ address target fault, ((Step.patch address target).run.run s).1 = .error fault →
      ((Step.patch address target).run.run s).2 = s) ∧
    ∀ name address existing, s.labels.get? name = some existing →
      (Step.define name address).run.run s = (.ok (.existing existing), s) := by
  obtain ⟨resolved, hgrows, hresolved⟩ := s.grows_after steps
  refine ⟨fun address old hold => ?_, fun name address => hgrows.labels, ?_, ?_, ?_,
    fun address target fault h => ?_, fun name address existing h => ?_⟩
  · obtain ⟨new, hnew, hbecomes⟩ := hgrows.code hold
    exact ⟨new, hnew, hbecomes.same, hbecomes.target⟩
  · obtain ⟨entries, hentries⟩ := hgrows.diagnostics
    rw [hentries, Diagnostics.entries_reportAll, Array.toList_append]
    exact List.prefix_append _ _
  · cases hkept : resolved with
    | false => exact .inl (hgrows.fixups hkept)
    | true => exact .inr (hresolved hkept)
  · rw [Step.run, snd_run_answer]
    exact (resolve_grows s).2
  · exact patch_step_of_error h
  · exact define_step_of_known h address

/-- The first goto is linked before resolving stops at the second fixup. Then it is settled. -/
example :
    let s := State.after {} [.emit (.goto "top" none), .await "top" 0, .await "top" 5,
      .define "top" 3, .resolve, .patch 0 9, .define "top" 7]
    s.code = #[.goto "top" (some 3)] ∧ s.labels.get? "top" = some 3 ∧ s.fixups = #[] := by
  decide +kernel

end Lowering

end TreeScript
