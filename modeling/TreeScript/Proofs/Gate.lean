import TreeScript.Proofs.Relaxation
import TreeScript.Proofs.Resolution
import TreeScript.Proofs.Sessions

/-!
# The gate for targets

A strategy may emit any instruction, patch it to any address and let fixups wait anywhere, even at the
address of the instruction that will be put behind its code. Before an executable is handed out, the
compile looks at every target once more.

* `Compiler.Admitted` says that a document gets past the stages before its header is read.
* `Compiler.strays` lists the instructions that lead past the end of a code.
* `Compiler.compile_gates_targets` says what is reported and handed out, whichever the strategy.
-/

namespace TreeScript

namespace Lowering

/-! ## 1. The last instruction -/

theorem size_aimAll (labels : SortedMap Nat) (code : Code) (fixups : List Fixup) :
    (aimAll labels code fixups).size = code.size := by
  induction fixups generalizing code with
  | nil => rfl
  | cons fixup fixups ih =>
    show (aimAll labels (aim labels code fixup) fixups).size = code.size
    rw [ih, aim]
    cases labels.get? fixup.label with
    | none => rfl
    | some target => exact Array.size_modify

theorem size_resolve (s : State) : (resolve.run s).2.code.size = s.code.size := by
  obtain ⟨passed, rest, result, -, -, -, hrun⟩ := resolve_splits s
  rw [hrun]
  exact size_aimAll s.labels s.code passed

/-- Resolving may set a target of the last instruction, but it puts no other one in its place. -/
theorem back?_resolve {s : State} (h : s.code.back? = some .nop) :
    (resolve.run s).2.code.back? = some .nop := by
  rw [Array.back?_eq_getElem?] at h ⊢
  obtain ⟨new, hnew, hbecomes⟩ := (resolve_grows s).1.code h
  rw [size_resolve, hnew]
  -- an instruction that does nothing has no target to be set
  have hsame : unpatched new = .nop := hbecomes.same
  cases new with
  | nop => rfl
  | _ => cases hsame

end Lowering

namespace Compiler

open Lowering

/-! ## 2. Admitted documents -/

/-- A document that passes validation and has its parts taken: a header and a code. -/
structure Admitted (grammar : Grammar) (document : Document) (header code : Node) : Prop where
  validated : (grammar.validate document {}).1 = some (Node.ofElement document.root)
  parted : ((partsOf (Node.ofElement document.root)).run {}).1 = .ok (header, code)

section Admitted

variable {grammar : Grammar} {document : Document} {header code : Node}

theorem Admitted.accepts (h : Admitted grammar document header code) : grammar.Accepts document :=
  (Grammar.accepts_of_validate h.validated).1

theorem Admitted.one_each (h : Admitted grammar document header code) :
    (Node.ofElement document.root).partsOf .header = [header] ∧
      (Node.ofElement document.root).partsOf .code = [code] := by
  have hparted := h.parted
  rcases partsOf_cases (Node.ofElement document.root) {} with
    ⟨header', code', hheader, hcode, hrun⟩ | ⟨part, hrun⟩ | ⟨-, hrun⟩
  · rw [hrun] at hparted
    cases hparted
    exact ⟨hheader, hcode⟩
  · rw [hrun] at hparted
    cases hparted
  · rw [hrun] at hparted
    cases hparted

theorem admitted_of_parts (haccepts : grammar.Accepts document)
    (hheader : (Node.ofElement document.root).partsOf .header = [header])
    (hcode : (Node.ofElement document.root).partsOf .code = [code]) :
    Admitted grammar document header code := by
  refine ⟨?_, ?_⟩
  · rw [Grammar.validate_of_accepts haccepts]
  · rw [partsOf_run hheader hcode]

end Admitted

/-! ## 3. Targets past the end -/

/-- The instructions whose targets lie past the end of a code, with their addresses and targets. -/
def strays (code : Code) : List (Nat × Instruction × Nat) :=
  code.toList.zipIdx.filterMap fun entry =>
    (entry.1.target?.filter (code.size ≤ ·)).map (entry.2, entry.1, ·)

theorem strayTargets_eq_map (code : Code) :
    strayTargets code =
      (strays code).map fun stray => .targetPastEnd stray.2.1.mnemonic stray.1 stray.2.2 := by
  rw [strayTargets, strays, List.map_filterMap]
  congr 1
  funext entry
  cases htarget : entry.1.target? with
  | none => simp [htarget]
  | some target =>
    by_cases hpast : code.size ≤ target
    · simp [htarget, hpast, Option.filter_some]
    · simp [htarget, hpast, Option.filter_some]

theorem mem_strays {code : Code} {address : Nat} {instruction : Instruction} {target : Nat} :
    (address, instruction, target) ∈ strays code ↔
      code[address]? = some instruction ∧ instruction.target? = some target ∧
        code.size ≤ target := by
  rw [strays, List.mem_filterMap, ← Array.getElem?_toList, ← List.mk_mem_zipIdx_iff_getElem?]
  constructor
  · rintro ⟨entry, hentry, hstray⟩
    obtain ⟨past, hpast, heq⟩ := Option.map_eq_some_iff.1 hstray
    obtain ⟨htarget, hle⟩ := Option.filter_eq_some_iff.1 hpast
    cases heq
    exact ⟨hentry, htarget, of_decide_eq_true hle⟩
  · rintro ⟨hentry, htarget, hle⟩
    refine ⟨(instruction, address), hentry, ?_⟩
    rw [htarget, Option.filter_some, if_pos (decide_eq_true hle), Option.map_some]

theorem strays_pairwise (code : Code) : (strays code).Pairwise fun a b => a.1 < b.1 := by
  have hindices : code.toList.zipIdx.Pairwise fun a b => a.2 < b.2 := by
    apply List.pairwise_map.1
    rw [List.zipIdx_map_snd]
    exact List.pairwise_lt_range'
  refine hindices.filterMap _ fun first second hlt a ha b hb => ?_
  obtain ⟨_, -, rfl⟩ := Option.map_eq_some_iff.1 ha
  obtain ⟨_, -, rfl⟩ := Option.map_eq_some_iff.1 hb
  exact hlt

/-- If no target is reported, then all of them are addresses of the code. -/
theorem target_lt_of_errorless {code : Code} (h : Errorless (strayTargets code))
    {instruction : Instruction} (hmem : instruction ∈ code) {target : Nat}
    (htarget : target ∈ instruction.target?) : target < code.size := by
  apply Nat.lt_of_not_le
  intro hpast
  obtain ⟨address, hat⟩ := Array.mem_iff_getElem?.1 hmem
  have hstray : (address, instruction, target) ∈ strays code := mem_strays.2 ⟨hat, htarget, hpast⟩
  rw [strayTargets_eq_map] at h
  have herror := h _ (List.mem_map_of_mem hstray)
  cases herror

/-! ## 4. Compiles -/

/-- The count of errors is zero just when no entry is an error. -/
theorem hasErrors_reportAll_empty (entries : List Diagnostic) :
    (({} : Diagnostics).reportAll entries).hasErrors = false ↔
      ∀ entry ∈ (({} : Diagnostics).reportAll entries).entries, entry.severity ≠ .error := by
  have hempty : ({} : Diagnostics).hasErrors = false := rfl
  rw [Diagnostics.hasErrors_reportAll, and_iff_right hempty, Diagnostics.entries_reportAll]
  simp [Errorless, Diagnostic.isError]

section Compiles

variable {grammar : Grammar} {strategy : Strategy} {document : Document} {header code : Node}
  {order : LabelOrder} {lowered final : State} {executable : Executable} {session after : Session}
  {result : Except CompileError Executable}

/-- The code of a document is lowered behind what is reported about the header. -/
theorem lowerCode_linked
    (hlowered : (strategy code).run { order, diagnostics := (Header.ofNode header {}).2 } =
      (.ok (), lowered))
    (hlinked : (do emit .nop; resolve : Lower Unit).run lowered = (.ok (), final)) :
    (do strategy code; emit .nop; resolve : Lower Unit).run
        { order, diagnostics := ({} : Diagnostics).reportAll (Header.remarks header) } =
      (.ok (), final) := by
  rw [Header.ofNode_apply] at hlowered
  rw [Stoppable.run_bind, hlowered]
  exact hlinked

/-- The last stage: a code that was lowered and linked is handed out if no error was reported at any
stage. -/
theorem compile_linked (hadmitted : Admitted grammar document header code)
    (hlowered : (strategy code).run { order, diagnostics := (Header.ofNode header {}).2 } =
      (.ok (), lowered))
    (hlinked : (do emit .nop; resolve : Lower Unit).run lowered = (.ok (), final))
    (hended : compile ⟨grammar, strategy⟩ document order session = (result, after)) :
    after.diagnostics = final.diagnostics.reportAll (strayTargets final.code) ∧
      (after.diagnostics.hasErrors = true ∧ (∃ error, result = .error error) ∨
        after.diagnostics.hasErrors = false ∧
          result = .ok ⟨Header.describedBy header, final.code⟩) := by
  obtain ⟨hheader, hcode⟩ := hadmitted.one_each
  have hassembled : (assemble ⟨grammar, strategy⟩ document order).run {} =
      let d := final.diagnostics.reportAll (strayTargets final.code)
      if d.hasErrors then (.error (.failed d.errors d.warnings), d)
      else (.ok ⟨Header.describedBy header, final.code⟩, d) := by
    rw [assemble_run hadmitted.accepts hheader hcode, lowerCode_strategy,
      lowerCode_linked hlowered hlinked]
    rfl
  rw [compile_apply, hassembled] at hended
  cases herrors : (final.diagnostics.reportAll (strayTargets final.code)).hasErrors with
  | true =>
    simp only [herrors, if_true] at hended
    cases hended
    exact ⟨rfl, .inl ⟨herrors, _, rfl⟩⟩
  | false =>
    simp only [herrors, Bool.false_eq_true, if_false] at hended
    cases hended
    exact ⟨rfl, .inr ⟨herrors, rfl⟩⟩

/-- An executable has come out of all stages. -/
theorem exists_linked_of_ok
    (h : ((assemble ⟨grammar, strategy⟩ document order).run {}).1 = .ok executable) :
    ∃ header code lowered final, Admitted grammar document header code ∧
      (strategy code).run { order, diagnostics := (Header.ofNode header {}).2 } = (.ok (), lowered) ∧
      (do emit .nop; resolve : Lower Unit).run lowered = (.ok (), final) := by
  rcases assemble_cases grammar document {} strategy with ⟨-, _, _, hrun⟩ |
    ⟨haccepts, ⟨_, hrun⟩ | ⟨_, _, hrun⟩ | ⟨header, code, hheader, hcode⟩⟩
  · rw [hrun] at h
    cases h
  · rw [hrun] at h
    cases h
  · rw [hrun] at h
    cases h
  · rw [assemble_run haccepts hheader hcode, lowerCode_strategy, Stoppable.run_bind] at h
    refine ⟨header, code, ?_⟩
    rw [Header.ofNode_apply]
    -- a fault of the strategy or of the linking would have ended the compile
    rcases hlowered : (strategy code).run
        { order, diagnostics := ({} : Diagnostics).reportAll (Header.remarks header) } with
      ⟨fault | ⟨⟩, lowered⟩
    · rw [hlowered] at h
      cases h
    · rw [hlowered] at h
      simp only at h
      rcases hlinked : (do emit .nop; resolve : Lower Unit).run lowered with ⟨fault | ⟨⟩, final⟩
      · rw [hlinked] at h
        cases h
      · exact ⟨lowered, final, admitted_of_parts haccepts hheader hcode, rfl, hlinked⟩

/-- The code that is linked ends with the instruction that was put behind it. -/
theorem back?_linked (h : (do emit .nop; resolve : Lower Unit).run lowered = (.ok (), final)) :
    final.code.back? = some .nop := by
  have hbehind : (lowered.extend [.nop] []).code.back? = some .nop := by
    rw [State.extend, ← Array.push_eq_append]
    exact Array.back?_push
  have hfinal : resolve.run (lowered.extend [.nop] []) = (.ok (), final) := by
    rw [Stoppable.run_bind, Stoppable.run_liftM, emit_apply] at h
    exact h
  have hback := back?_resolve hbehind
  rwa [hfinal] at hback

/-- What strategies of steps and the stages around them have reported, from the header on. -/
theorem reported_linked (hstepwise : strategy.Stepwise)
    (hlowered : (strategy code).run { order, diagnostics := (Header.ofNode header {}).2 } =
      (.ok (), lowered))
    (hlinked : (do emit .nop; resolve : Lower Unit).run lowered = (.ok (), final)) :
    ∃ entries, final.diagnostics = ({} : Diagnostics).reportAll entries := by
  obtain ⟨entries, hentries⟩ := hstepwise.reports code
    { order, diagnostics := ({} : Diagnostics).reportAll (Header.remarks header) }
  rw [lowerCode_linked hlowered hlinked] at hentries
  exact ⟨Header.remarks header ++ entries, by rw [Diagnostics.reportAll_append, ← hentries]⟩

/-- Whichever its steps, no strategy gets a target past the end of the code into an executable.

If a document is admitted, and its code is lowered and linked without a fault, then one error is
reported for each instruction that leads past the end, by ascending addresses, behind all that was
reported before; and an executable is handed out just when nothing that was reported is an error.
Every executable ends with the instruction that was put behind its code, and all of its targets are
addresses of it. -/
theorem compile_gates_targets (hstepwise : strategy.Stepwise)
    (hended : compile ⟨grammar, strategy⟩ document order session = (result, after)) :
    (∀ header code lowered final, Admitted grammar document header code →
      (strategy code).run { order, diagnostics := (Header.ofNode header {}).2 } = (.ok (), lowered) →
      (do emit .nop; resolve : Lower Unit).run lowered = (.ok (), final) →
      (∃ stray : List (Nat × Instruction × Nat),
        (∀ address instruction target, (address, instruction, target) ∈ stray ↔
          final.code[address]? = some instruction ∧ instruction.target? = some target ∧
            final.code.size ≤ target) ∧
        (stray.Pairwise fun a b => a.1 < b.1) ∧
        after.diagnostics.entries.toList = final.diagnostics.entries.toList ++
          stray.map fun stray => .targetPastEnd stray.2.1.mnemonic stray.1 stray.2.2) ∧
      ((∃ executable, result = .ok executable) ↔
        ∀ entry ∈ after.diagnostics.entries, entry.severity ≠ .error)) ∧
    ∀ executable, result = .ok executable →
      executable.code.back? = some .nop ∧
        ∀ instruction ∈ executable.code, ∀ target ∈ instruction.target?,
          target < executable.code.size := by
  constructor
  · intro header code lowered final hadmitted hlowered hlinked
    obtain ⟨hdiagnostics, hresult⟩ := compile_linked hadmitted hlowered hlinked hended
    obtain ⟨entries, hentries⟩ := reported_linked hstepwise hlowered hlinked
    refine ⟨⟨strays final.code, fun _ _ _ => mem_strays, strays_pairwise final.code, ?_⟩, ?_⟩
    · rw [hdiagnostics, Diagnostics.entries_reportAll, Array.toList_append, strayTargets_eq_map]
    · -- the gate looks at the count of errors, which is the number of entries that are errors
      have hcount := hasErrors_reportAll_empty (entries ++ strayTargets final.code)
      rw [Diagnostics.reportAll_append, ← hentries, ← hdiagnostics] at hcount
      rw [← hcount]
      rcases hresult with ⟨herrors, error, rfl⟩ | ⟨hnone, rfl⟩
      · simp [herrors]
      · simp [hnone]
  · intro executable hok
    rw [hok] at hended
    obtain ⟨header, code, lowered, final, hadmitted, hlowered, hlinked⟩ :=
      exists_linked_of_ok ((compile_fst _ _ _ session).symm.trans (congrArg Prod.fst hended))
    obtain ⟨hdiagnostics, hresult⟩ := compile_linked hadmitted hlowered hlinked hended
    rcases hresult with ⟨-, error, herror⟩ | ⟨hnone, heq⟩
    · cases herror
    · cases heq
      refine ⟨back?_linked hlinked, fun instruction hmem target htarget => ?_⟩
      rw [hdiagnostics, Diagnostics.hasErrors_reportAll] at hnone
      exact target_lt_of_errorless hnone.2 hmem htarget

/-- A strategy that patches a jump past the end of its code, jumps farther still, and has a goto to the
instruction that will be put behind. -/
def overshoot : Strategy := .ofSteps fun _ =>
  [.emit (.condJump .equal none), .emit (.jump 40), .patch 0 7, .emit (.goto "end" none),
    .await "end" 2, .define "end" 3]

theorem overshoot_linked (code : Node) (d : Diagnostics) :
    ∃ lowered final, (overshoot code).run { diagnostics := d } = (.ok (), lowered) ∧
      (do emit .nop; resolve : Lower Unit).run lowered = (.ok (), final) ∧
      final.code = #[.condJump .equal (some 7), .jump 40, .goto "end" (some 3), .nop] := by
  let lowered : State := {
    code := #[.condJump .equal (some 7), .jump 40, .goto "end" none]
    labels := .ofList [("end", 3)]
    fixups := #[⟨"end", 2⟩]
    diagnostics := d }
  have hwaiting : Waiting (lowered.extend [.nop] []).code [⟨"end", 2⟩] := by
    refine ⟨fun fixup hfixup => ?_, List.pairwise_singleton _ _⟩
    rw [List.mem_singleton.1 hfixup]
    rfl
  have hlinked := resolve_run hwaiting
  exact ⟨lowered, _, rfl, hlinked, rfl⟩

theorem overshoot_gates_targets :
    let past := compile ⟨.standard, overshoot⟩ gotoLoop .byName {}
    let loop := compile ⟨.standard, .standard⟩ gotoLoop .byName {}
    (∃ header code lowered final, Admitted .standard gotoLoop header code ∧
      (overshoot code).run { diagnostics := (Header.ofNode header {}).2 } = (.ok (), lowered) ∧
      (do emit .nop; resolve : Lower Unit).run lowered = (.ok (), final) ∧
      (∃ stray : List (Nat × Instruction × Nat),
        (0, .condJump .equal (some 7), 7) ∈ stray ∧ (1, .jump 40, 40) ∈ stray ∧
        past.2.diagnostics.entries.toList = final.diagnostics.entries.toList ++
          stray.map fun stray => .targetPastEnd stray.2.1.mnemonic stray.1 stray.2.2) ∧
      ((∃ executable, past.1 = .ok executable) ↔
        ∀ entry ∈ past.2.diagnostics.entries, entry.severity ≠ .error)) ∧
    ∃ header, loop.1 = .ok ⟨header, gotoLoopCode⟩ ∧ gotoLoopCode.back? = some .nop := by
  intro past loop
  obtain ⟨head, hloop⟩ := compile_gotoLoop
  have hgate := compile_gates_targets Strategy.standard_stepwise (Prod.eta loop).symm
  refine ⟨?_, head, hloop, (hgate.2 _ hloop).1⟩
  obtain ⟨header, code, -, -, hadmitted, -, -⟩ :=
    exists_linked_of_ok ((compile_fst _ _ _ {}).symm.trans hloop)
  obtain ⟨lowered, final, hlowered, hlinked, hcode⟩ := overshoot_linked code (Header.ofNode header {}).2
  have hpast := compile_gates_targets (Strategy.ofSteps_stepwise _) (Prod.eta past).symm
  obtain ⟨⟨stray, hmem, -, hentries⟩, hresult⟩ :=
    hpast.1 header code lowered final hadmitted hlowered hlinked
  rw [hcode] at hmem
  refine ⟨header, code, lowered, final, hadmitted, hlowered, hlinked,
    ⟨stray, (hmem _ _ _).2 ?_, (hmem _ _ _).2 ?_, hentries⟩, hresult⟩
  · decide
  · decide

end Compiles

end Compiler

end TreeScript
