import TreeScript.Proofs.Compile
import TreeScript.Proofs.Growth
import TreeScript.Proofs.Resolution

/-!
# Orders of labels

A table of labels is gone through in an order that no compile can choose. Labels that no goto asks for
are reported by their addresses, so the order shows where several of them stand at one address, and
nowhere else: two compiles that differ in it have the same result, and their entries differ in the
order of those reports only.

* `Reordered` relates entries that differ so, and `Session.Alike` the sessions that hold them.
* `Lowering.Steady` is a computation that ends alike from states that are alike.
* `Compiler.compile_alike` compares two compiles.
-/

namespace TreeScript

open Stoppable (Matches Parallel parallel_pure)

/-! ## 1. Entries -/

/-- Entries in two orders. Reports on labels at one address that no goto asks for may have changed
places with each other. -/
inductive Reordered : List Diagnostic → List Diagnostic → Prop where
  | refl (entries : List Diagnostic) : Reordered entries entries
  | swap (before behind : List Diagnostic) (first second : String) (address : Nat) :
    Reordered
      (before ++ .labelUnused first address :: .labelUnused second address :: behind)
      (before ++ .labelUnused second address :: .labelUnused first address :: behind)
  | trans {a b c : List Diagnostic} (h : Reordered a b) (h' : Reordered b c) : Reordered a c

namespace Reordered

variable {a b : List Diagnostic}

theorem perm (h : Reordered a b) : a.Perm b := by
  induction h with
  | refl entries => exact .refl entries
  | swap before behind first second address => exact (List.Perm.swap _ _ _).append_left before
  | trans _ _ ih ih' => exact ih.trans ih'

theorem append_left (h : Reordered a b) (before : List Diagnostic) :
    Reordered (before ++ a) (before ++ b) := by
  induction h with
  | refl entries => exact .refl _
  | swap before' behind first second address =>
    rw [← List.append_assoc, ← List.append_assoc]
    exact .swap _ behind first second address
  | trans _ _ ih ih' => exact ih.trans ih'

theorem append_right (h : Reordered a b) (behind : List Diagnostic) :
    Reordered (a ++ behind) (b ++ behind) := by
  induction h with
  | refl entries => exact .refl _
  | swap before behind' first second address =>
    rw [List.append_assoc, List.append_assoc]
    exact .swap before _ first second address
  | trans _ _ ih ih' => exact ih.trans ih'

end Reordered

/-- A report goes behind others at its address. -/
theorem reordered_behind (name : String) {address : Nat} {before : List (String × Nat)}
    (h : ∀ label ∈ before, label.2 = address) (behind : List Diagnostic) :
    Reordered
      (.labelUnused name address ::
        (before.map (fun label => .labelUnused label.1 label.2) ++ behind))
      (before.map (fun label => .labelUnused label.1 label.2) ++
        .labelUnused name address :: behind) := by
  induction before with
  | nil => exact .refl _
  | cons label before ih =>
    obtain ⟨rfl, hbefore⟩ := List.forall_mem_cons.1 h
    have hswap := Reordered.swap [] (before.map (fun label => .labelUnused label.1 label.2) ++ behind)
      name label.1 label.2
    exact hswap.trans ((ih hbefore).append_left [.labelUnused label.1 label.2])

/-- Labels that are sorted by address are reported alike, whichever sorted list they are in. -/
theorem reordered_of_perm {labels labels' : List (String × Nat)} (h : labels.Perm labels')
    (hsorted : labels.Pairwise fun a b => a.2 ≤ b.2)
    (hsorted' : labels'.Pairwise fun a b => a.2 ≤ b.2) :
    Reordered (labels.map fun label => .labelUnused label.1 label.2)
      (labels'.map fun label => .labelUnused label.1 label.2) := by
  induction labels generalizing labels' with
  | nil =>
    rw [h.nil_eq]
    exact .refl _
  | cons label labels ih =>
    obtain ⟨before, behind, rfl⟩ := List.append_of_mem (h.mem_iff.1 List.mem_cons_self)
    obtain ⟨hfirst, hrest⟩ := List.pairwise_cons.1 hsorted
    obtain ⟨hbefore, hbehind, hcross⟩ := List.pairwise_append.1 hsorted'
    have hperm : labels.Perm (before ++ behind) :=
      (List.perm_cons label).1 (h.trans List.perm_middle)
    -- what stands before the label in one list and behind it in the other is at its address
    have hties : ∀ other ∈ before, other.2 = label.2 := by
      intro other hother
      have hle := hcross other hother label List.mem_cons_self
      have hge := hfirst other (hperm.mem_iff.2 (List.mem_append_left _ hother))
      omega
    have hmerged := hsorted'.sublist ((List.sublist_cons_self label behind).append_left before)
    have htail := (ih hperm hrest hmerged).append_left [.labelUnused label.1 label.2]
    rw [List.map_append, List.map_cons]
    rw [List.map_append] at htail
    exact htail.trans (reordered_behind label.1 hties _)

/-! ## 2. Diagnostics and states -/

/-- Diagnostics that differ in the order of such reports only. -/
structure Diagnostics.Alike (d d' : Diagnostics) : Prop where
  entries : Reordered d.entries.toList d'.entries.toList
  errors : d.errors = d'.errors
  warnings : d.warnings = d'.warnings

namespace Diagnostics.Alike

variable {d d' : Diagnostics}

theorem refl (d : Diagnostics) : d.Alike d :=
  ⟨.refl _, rfl, rfl⟩

theorem reportAll (h : d.Alike d') {entries entries' : List Diagnostic}
    (hentries : Reordered entries entries') :
    (d.reportAll entries).Alike (d'.reportAll entries') where
  entries := by
    rw [entries_reportAll, entries_reportAll, Array.toList_append, Array.toList_append]
    exact (h.entries.append_right entries).trans (hentries.append_left _)
  errors := by
    rw [errors_reportAll, errors_reportAll, h.errors, hentries.perm.countP_eq]
  warnings := by
    rw [warnings_reportAll, warnings_reportAll, h.warnings, hentries.perm.countP_eq]

end Diagnostics.Alike

namespace Lowering

/-- States that differ in the order of labels, and in what is reported by that order. -/
structure State.Alike (s s' : State) : Prop where
  code : s.code = s'.code
  labels : s.labels = s'.labels
  fixups : s.fixups = s'.fixups
  diagnostics : s.diagnostics.Alike s'.diagnostics

namespace State.Alike

variable {s s' : State}

theorem extend (h : s.Alike s') (code : List Instruction) {entries entries' : List Diagnostic}
    (hentries : Reordered entries entries') :
    (s.extend code entries).Alike (s'.extend code entries') where
  code := congrArg (· ++ code.toArray) h.code
  labels := h.labels
  fixups := h.fixups
  diagnostics := h.diagnostics.reportAll hentries

theorem advance (h : s.Alike s') (places : List (Nat × Node)) (code : List Instruction) :
    (s.advance places code).Alike (s'.advance places code) where
  code := congrArg (· ++ code.toArray) h.code
  labels := congrArg (defineAll · places) h.labels
  fixups := congrArg (· ++ (awaited places).toArray) h.fixups
  diagnostics := by
    show (s.diagnostics.reportAll _).Alike (s'.diagnostics.reportAll _)
    rw [h.labels]
    exact h.diagnostics.reportAll (.refl _)

end State.Alike

/-! ## 3. Lowering -/

/-- A computation that goes by neither the order of labels nor the entries so far. -/
def Steady {α : Type} (x : Lower α) : Prop :=
  Parallel State.Alike x x

theorem Ends.steady {x : Lower Unit} {result : Except Fault Unit} {places : Nat → List (Nat × Node)}
    {code : Nat → List Instruction} (h : Ends x result places code) : Steady x := by
  intro s s' hs
  rw [h s, h s', hs.code]
  exact ⟨rfl, hs.advance _ _⟩

theorem address_steady : Steady (address : Lower Nat) := by
  intro s s' hs
  rw [Stoppable.run_liftM, Stoppable.run_liftM, address_apply, address_apply, hs.code]
  exact ⟨rfl, hs⟩

theorem emit_steady (instruction : Instruction) : Steady (emit instruction : Lower Unit) := by
  intro s s' hs
  rw [Stoppable.run_liftM, Stoppable.run_liftM, emit_apply, emit_apply]
  exact ⟨rfl, hs.extend _ (.refl _)⟩

theorem report_steady (entry : Diagnostic) : Steady (report entry : Lower Unit) := by
  intro s s' hs
  rw [Stoppable.run_liftM, Stoppable.run_liftM, report_apply, report_apply]
  exact ⟨rfl, hs.extend _ (.refl _)⟩

theorem patch_steady (address target : Nat) : Steady (patch address target) := by
  intro s s' hs
  rw [patch_run, patch_run]
  unfold State.patch
  rw [hs.code]
  cases s'.code[address]? with
  | none => exact ⟨rfl, hs⟩
  | some instruction =>
    by_cases hfixed : !instruction.isPatchable
    · simp only [if_pos hfixed]
      exact ⟨rfl, hs⟩
    · by_cases haimed : instruction.target?.isSome
      · simp only [if_neg hfixed, if_pos haimed]
        exact ⟨rfl, hs⟩
      · simp only [if_neg hfixed, if_neg haimed]
        exact ⟨rfl, rfl, hs.labels, hs.fixups, hs.diagnostics⟩

theorem define_steady (name : String) (address : Nat) :
    Steady (define name address : Lower (Option Nat)) := by
  intro s s' hs
  rw [Stoppable.run_liftM, Stoppable.run_liftM, define_apply, define_apply, hs.labels]
  exact ⟨rfl, hs.code, rfl, hs.fixups, hs.diagnostics⟩

theorem await_steady (label : String) (address : Nat) :
    Steady (await label address : Lower Unit) := by
  intro s s' hs
  rw [Stoppable.run_liftM, Stoppable.run_liftM, await_apply, await_apply, hs.fixups]
  exact ⟨rfl, hs.code, hs.labels, rfl, hs.diagnostics⟩

theorem inScope_steady {body : Lower Unit} (h : Steady body) : Steady (inScope body) := by
  intro s s' hs
  rw [inScope_run, inScope_run]
  have hbody := h _ _ (hs.extend [.scopeEnter] (.refl []))
  exact ⟨hbody.result, hbody.state.extend _ (.refl _)⟩

theorem link_steady (labels : SortedMap Nat) (fixup : Fixup) : Steady (link labels fixup) := by
  unfold link
  cases labels.get? fixup.label with
  | some target => exact patch_steady fixup.address target
  | none => exact report_steady _

/-- Labels that are not used are reported alike, whichever the order. -/
theorem reordered_unusedRemarks (order order' : LabelOrder) (labels : SortedMap Nat)
    (fixups : List Fixup) :
    Reordered (unusedRemarks order labels fixups) (unusedRemarks order' labels fixups) :=
  reordered_of_perm
    ((unusedLabels_perm order labels fixups).trans (unusedLabels_perm order' labels fixups).symm)
    (unusedLabels_pairwise order labels fixups) (unusedLabels_pairwise order' labels fixups)

/-- Labels by their names, from the last one on. -/
def LabelOrder.fromLast : LabelOrder where
  arrange labels := labels.entries.reverse
  perm labels := labels.entries.reverse_perm

/-- The order shows at one address, and not beyond it. -/
example :
    let labels := SortedMap.ofList [("a", 0), ("b", 0), ("c", 7)]
    unusedRemarks ⟨SortedMap.entries, fun _ => .rfl⟩ labels [] =
        [.labelUnused "a" 0, .labelUnused "b" 0, .labelUnused "c" 7] ∧
      unusedRemarks .fromLast labels [] =
        [.labelUnused "b" 0, .labelUnused "a" 0, .labelUnused "c" 7] := by
  constructor <;> cbv

theorem resolve_steady : Steady resolve := by
  intro s s' hs
  rw [resolve_run_eq, resolve_run_eq, hs.labels, hs.fixups]
  refine (Parallel.forM (link_steady s'.labels) s'.fixups.toList).bind (fun _ => ?_)
    _ _ ⟨hs.code, rfl, rfl, hs.diagnostics⟩
  intro t t' ht
  rw [forM_report_run, forM_report_run]
  exact ⟨rfl, ht.extend [] (reordered_unusedRemarks _ _ _ _)⟩

theorem Steady.answer {α β : Type} {x : Lower α} (h : Steady x) (f : α → β) :
    Steady (x >>= fun a => pure (f a)) :=
  h.bind fun _ => parallel_pure _

mutual

theorem Step.steady (step : Step) : Steady step.run := by
  cases step with
  | lower node =>
    rw [Step.run]
    exact (lower_ends node).steady.answer _
  | children node =>
    rw [Step.run]
    exact (lowerAll_ends node.children).steady.answer _
  | emit instruction =>
    rw [Step.run]
    exact address_steady.bind fun _ => (emit_steady instruction).answer _
  | patch address target =>
    rw [Step.run]
    exact (patch_steady address target).answer _
  | address =>
    rw [Step.run]
    exact address_steady.answer _
  | define name address =>
    rw [Step.run]
    exact (define_steady name address).answer _
  | lookup name =>
    rw [Step.run]
    intro s s' hs
    exact ⟨congrArg (fun labels : SortedMap Nat =>
      Except.ok (((labels.get? name).map Answer.address).getD .nothing)) hs.labels, hs⟩
  | await label address =>
    rw [Step.run]
    exact (await_steady label address).answer _
  | scope body =>
    rw [Step.run]
    exact (inScope_steady (runAll_steady body)).answer _
  | resolve =>
    rw [Step.run]
    exact resolve_steady.answer _

theorem runAll_steady (steps : List Step) : Steady (runAll steps) := by
  cases steps with
  | nil =>
    rw [runAll]
    exact parallel_pure ()
  | cons step steps =>
    rw [runAll, Stoppable.discard_eq]
    exact (step.steady.answer _).bind fun _ => runAll_steady steps

end

/-- A strategy that goes by neither the order of labels nor the entries so far. -/
def Strategy.Steady (strategy : Strategy) : Prop :=
  ∀ code, Lowering.Steady (strategy code)

theorem Strategy.standard_steady : Strategy.standard.Steady :=
  fun code => (lowerAll_ends code.children).steady

theorem Strategy.ofSteps_steady (steps : Node → List Step) : (Strategy.ofSteps steps).Steady :=
  fun code => runAll_steady (steps code)

end Lowering

/-! ## 4. Compiles -/

/-- Sessions that differ in the order of reports on labels only. -/
structure Session.Alike (session session' : Session) : Prop where
  diagnostics : session.diagnostics.Alike session'.diagnostics
  stage : session.stage = session'.stage

theorem Session.Alike.refl (session : Session) : session.Alike session :=
  ⟨.refl _, rfl⟩

namespace Compiler

open Lowering

variable {strategy : Strategy}

theorem lowerCode_parallel (h : strategy.Steady) (order order' : LabelOrder) (code : Node) :
    Parallel Diagnostics.Alike (lowerCode strategy order code) (lowerCode strategy order' code) := by
  intro d d' hd
  have hlowering : Lowering.Steady (do strategy code; emit .nop; resolve : Lower Unit) :=
    (h code).bind fun _ => (emit_steady .nop).bind fun _ => resolve_steady
  have hends := hlowering { order, diagnostics := d } { order := order', diagnostics := d' }
    ⟨rfl, rfl, rfl, hd⟩
  rw [lowerCode_strategy, lowerCode_strategy]
  refine ⟨?_, hends.state.diagnostics⟩
  simp only [hends.result, hends.state.code]

theorem report_parallel (entries : List Diagnostic) :
    Parallel Diagnostics.Alike
      (entries.forM fun entry => (Reporting.report entry : Compiling Unit))
      (entries.forM fun entry => (Reporting.report entry : Compiling Unit)) := by
  intro d d' hd
  rw [forM_report_run, forM_report_run]
  exact ⟨rfl, hd.reportAll (.refl _)⟩

theorem fail_parallel {α : Type} :
    Parallel Diagnostics.Alike (fail : Compiling α) (fail : Compiling α) := by
  intro d d' hd
  rw [fail_run, fail_run, hd.errors, hd.warnings]
  exact ⟨rfl, hd⟩

/-- The last stage of a compile looks at the numbers of entries only. -/
theorem gate_parallel (executable : Executable) :
    Parallel Diagnostics.Alike
      (do if (← get).hasErrors then fail
          return executable : Compiling Executable)
      (do if (← get).hasErrors then fail
          return executable : Compiling Executable) := by
  intro d d' hd
  simp only [Stoppable.run_bind, Stoppable.run_get, Diagnostics.hasErrors, hd.errors]
  by_cases herrors : 0 < d'.errors
  · simp only [herrors, decide_true, if_true]
    exact fail_parallel.bind (fun _ => parallel_pure executable) d d' hd
  · simp only [herrors, decide_false, Bool.false_eq_true, if_false]
    exact ⟨rfl, hd⟩

theorem assemble_alike (h : strategy.Steady) (grammar : Grammar) (document : Document)
    (order order' : LabelOrder) (d : Diagnostics) :
    Matches Diagnostics.Alike ((assemble ⟨grammar, strategy⟩ document order).run d)
      ((assemble ⟨grammar, strategy⟩ document order').run d) := by
  -- up to the code, both compiles do the same
  refine Stoppable.matches_bind_of_same .refl (fun root d => ?_) _ d
  cases root with
  | none => exact ⟨rfl, .refl d⟩
  | some root =>
    refine Stoppable.matches_bind_of_same .refl (fun parts d => ?_) _ d
    refine Stoppable.matches_bind_of_same .refl (fun header d => ?_) _ d
    refine (lowerCode_parallel h order order' parts.2).bind (fun code => ?_) d d (.refl d)
    exact (report_parallel (strayTargets code)).bind fun _ => gate_parallel ⟨header, code⟩

/-- The order of labels decides nothing but the order of reports on them. -/
theorem compile_alike (h : strategy.Steady) (grammar : Grammar) (document : Document)
    (order order' : LabelOrder) (session session' : Session) :
    Matches Session.Alike (compile ⟨grammar, strategy⟩ document order session)
      (compile ⟨grammar, strategy⟩ document order' session') := by
  have hends := assemble_alike h grammar document order order' {}
  rw [compile_apply, compile_apply]
  simp only [hends.result]
  exact ⟨rfl, hends.state.reportAll (.refl _), rfl⟩

/-- A script with two labels at one address that no goto asks for. -/
def twins : Document where
  root := {
    tag := "script"
    children := [
      { tag := "header", attributes := .ofList [("name", "twins"), ("version-number", "1.0")] },
      { tag := "code"
        children := [
          { tag := "label", attributes := .ofList [("name", "a")] },
          { tag := "label", attributes := .ofList [("name", "b")] }] }] }

end Compiler

end TreeScript
