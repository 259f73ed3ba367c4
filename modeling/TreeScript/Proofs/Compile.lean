import TreeScript.Compiler
import TreeScript.Grammar.Standard
import TreeScript.Proofs.Conformance
import TreeScript.Proofs.Header
import TreeScript.Proofs.Program

/-!
# Compiling

A compile has five stages: it validates the document, takes its parts, reads the header, lowers and
links the code, and checks all targets. Some of them end the compile at once, others report errors
and go on. Together they accept just the scripts: documents that conform to the grammar, have one
header and one code, a header with a name and a version, and well-formed nodes in the code.
-/

namespace TreeScript

open Lowering

namespace Compiler

/-! ## 1. Parts -/

theorem forM_report_run (entries : List Diagnostic) (d : Diagnostics) :
    (entries.forM fun entry => (Reporting.report entry : Compiling Unit)).run d =
      (.ok (), d.reportAll entries) := by
  induction entries generalizing d with
  | nil => rfl
  | cons entry entries ih => exact ih (d.report entry)

theorem fail_run {α : Type} (d : Diagnostics) :
    (fail : Compiling α).run d = (.error (.failed d.errors d.warnings), d) := rfl

section Parts

variable {root header code : Node}

/-- A document with one header and one code has its parts taken, and nothing is reported. -/
theorem partsOf_run (hheader : root.partsOf .header = [header]) (hcode : root.partsOf .code = [code])
    (d : Diagnostics) : (partsOf root).run d = (.ok (header, code), d) := by
  have hextra : extraParts root .header ++ extraParts root .code = [] := by
    rw [extraParts, extraParts, hheader, hcode]
    rfl
  rw [partsOf, hextra, hheader, hcode]
  rfl

theorem drop_eq_nil_of_extraParts {part : Part} (h : extraParts root part = []) :
    (root.partsOf part).drop 1 = [] :=
  List.map_eq_nil_iff.1 h

theorem not_errorless_extraParts
    (h : extraParts root .header ++ extraParts root .code ≠ []) :
    ¬ Errorless (extraParts root .header ++ extraParts root .code) := by
  intro herrorless
  obtain ⟨entry, hentry⟩ := List.exists_mem_of_ne_nil _ h
  have herror : entry.isError := by
    rcases List.mem_append.1 hentry with hentry | hentry
    · obtain ⟨extra, -, rfl⟩ := List.mem_map.1 hentry
      rfl
    · obtain ⟨extra, -, rfl⟩ := List.mem_map.1 hentry
      rfl
  cases herror.symm.trans (herrorless entry hentry)

/-- The parts of a document are taken if each is there once. Otherwise the compile ends: because of
the extra parts, which are reported as errors, or because of a missing one. -/
theorem partsOf_cases (root : Node) (d : Diagnostics) :
    (∃ header code, root.partsOf .header = [header] ∧ root.partsOf .code = [code] ∧
        (partsOf root).run d = (.ok (header, code), d)) ∨
      (∃ part, (partsOf root).run d = (.error (.fatal (.missingPart part)), d)) ∨
      let d' := d.reportAll (extraParts root .header ++ extraParts root .code)
      d.errors ≠ d'.errors ∧ (partsOf root).run d = (.error (.failed d'.errors d'.warnings), d') := by
  by_cases hextra : extraParts root .header ++ extraParts root .code = []
  · obtain ⟨hheader, hcode⟩ := List.append_eq_nil_iff.1 hextra
    have hheader := drop_eq_nil_of_extraParts hheader
    have hcode := drop_eq_nil_of_extraParts hcode
    -- no part is there twice; what is left is whether one is missing
    rcases hheaders : root.partsOf .header with _ | ⟨header, rest⟩
    · refine .inr (.inl ⟨.header, ?_⟩)
      rw [partsOf, hextra, hheaders]
      rfl
    · rcases hcodes : root.partsOf .code with _ | ⟨code, rest'⟩
      · refine .inr (.inl ⟨.code, ?_⟩)
        rw [partsOf, hextra, hheaders, hcodes]
        rfl
      · rw [hheaders, List.drop_one, List.tail_cons] at hheader
        rw [hcodes, List.drop_one, List.tail_cons] at hcode
        subst hheader hcode
        exact .inl ⟨header, code, rfl, rfl, partsOf_run hheaders hcodes d⟩
  · -- extra parts end the compile before the first ones are looked at
    refine .inr (.inr ⟨fun h => not_errorless_extraParts hextra ?_, ?_⟩)
    · exact (Diagnostics.errors_reportAll_eq_iff d _).1 h.symm
    · simp only [partsOf, Stoppable.run_bind, forM_report_run, ne_eq, hextra, not_false_eq_true,
        if_true, fail_run]

end Parts

/-! ## 2. Code -/

section Code

variable {code : Node} {order : LabelOrder} {d : Diagnostics}

/-- Lowering a code hands on what comes of its strategy. -/
theorem lowerCode_strategy (strategy : Strategy) :
    (lowerCode strategy order code).run d =
      let ended := (do strategy code; emit .nop; resolve : Lower Unit).run { order, diagnostics := d }
      ((ended.1.map fun _ => ended.2.code).mapError .fatal, ended.2.diagnostics) := by
  rw [lowerCode, Stoppable.run_bind, Stoppable.run_get]
  simp only
  rcases (do strategy code; emit .nop; resolve : Lower Unit).run { order, diagnostics := d } with
    ⟨fault | ⟨⟩, s⟩
  · rfl
  · rfl

theorem lowerCode_standard :
    (lowerCode .standard order code).run d =
      let ended := (lowerAndLink code.children).run { order, diagnostics := d }
      ((ended.1.map fun _ => ended.2.code).mapError .fatal, ended.2.diagnostics) :=
  lowerCode_strategy .standard

/-- A code whose nodes are all constructs is lowered and linked. -/
theorem lowerCode_run (h : ∀ n ∈ reachedAll code.children, isConstruct n) :
    (lowerCode .standard order code).run d =
      (.ok (linkAll (labelTable code.children) (unlinked code.children).toArray
          (awaited (placedAll 0 code.children))),
        d.reportAll (reports order code.children)) := by
  rw [lowerCode_standard, lowerAndLink_run h]
  rfl

/-- Any other code stops the compile at its first foreign node. -/
theorem lowerCode_stops {stop : Node} (h : foreign? (reachedAll code.children) = some stop) :
    ((lowerCode .standard order code).run d).1 =
      .error (.fatal (.unsupported stop.tag stop.trail)) := by
  have hfault := lowerAndLink_stops h { order, diagnostics := d }
  rw [lowerCode_standard]
  rcases hrun : (lowerAndLink code.children).run { order, diagnostics := d } with ⟨fault | ⟨⟩, s⟩
  · rw [hrun] at hfault
    cases hfault
    rfl
  · rw [hrun] at hfault
    cases hfault

theorem lowerCode_eq_ok {result : Code}
    (h : ((lowerCode .standard order code).run d).1 = .ok result) :
    ∀ n ∈ reachedAll code.children, isConstruct n := by
  cases hstop : foreign? (reachedAll code.children) with
  | none => exact foreign?_eq_none.1 hstop
  | some stop => cases (lowerCode_stops hstop).symm.trans h

/-- No instruction leads past the end, whether or not its label is known. -/
theorem strayTargets_linkAll (nodes : List Node) :
    strayTargets (linkAll (labelTable nodes) (unlinked nodes).toArray
      (awaited (placedAll 0 nodes))) = [] := by
  generalize hresult : linkAll (labelTable nodes) (unlinked nodes).toArray
    (awaited (placedAll 0 nodes)) = result
  have hsize : result.size = sizeAll nodes + 1 := by
    rw [← hresult, size_linkAll, List.size_toArray, length_unlinked]
  rw [strayTargets, List.filterMap_eq_nil_iff]
  rintro ⟨instruction, address⟩ hmem
  have hat : result[address]? = some instruction := by
    rw [← Array.getElem?_toList]
    exact List.mem_zipIdx_iff_getElem?.1 hmem
  cases htarget : instruction.target? with
  | none => simp only [htarget]
  | some target =>
    have hle : target ≤ sizeAll nodes := by
      rw [← hresult, getElem?_linkAll, List.getElem?_toArray] at hat
      split at hat
      next =>
        obtain ⟨original, horiginal, rfl⟩ := Option.map_eq_some_iff.1 hat
        exact (target_le_of_link (List.mem_of_getElem? horiginal)).2 target htarget
      next => exact (target_le_of_link (List.mem_of_getElem? hat)).1 target htarget
    have hlt : ¬ result.size ≤ target := by omega
    simp only [htarget, hlt, if_false]

end Code

/-! ## 3. Scripts -/

/-- A document that a compiler with a grammar accepts, with its header and its code. -/
structure IsScript (grammar : Grammar) (document : Document) (header code : Node) : Prop where
  accepts : grammar.Accepts document
  one_header : (Node.ofElement document.root).partsOf .header = [header]
  one_code : (Node.ofElement document.root).partsOf .code = [code]
  proper : Header.Proper header
  wellFormed : WellFormed code.children

variable {grammar : Grammar} {document : Document} {order : LabelOrder} {header code : Node}

/-- The stages behind the parts of a document. -/
theorem assemble_run {strategy : Strategy} (haccepts : grammar.Accepts document)
    (hheader : (Node.ofElement document.root).partsOf .header = [header])
    (hcode : (Node.ofElement document.root).partsOf .code = [code]) (d : Diagnostics) :
    (assemble ⟨grammar, strategy⟩ document order).run d =
      match (lowerCode strategy order code).run (d.reportAll (Header.remarks header)) with
      | (.ok result, d') =>
        let d' := d'.reportAll (strayTargets result)
        if d'.hasErrors then (.error (.failed d'.errors d'.warnings), d')
        else (.ok ⟨Header.describedBy header, result⟩, d')
      | (.error error, d') => (.error error, d') := by
  simp only [assemble, Stoppable.run_bind, Stoppable.run_liftM, Grammar.validate_of_accepts haccepts,
    partsOf_run hheader hcode, Header.ofNode_apply]
  rcases (lowerCode strategy order code).run (d.reportAll (Header.remarks header)) with
    ⟨error | result, d'⟩
  · rfl
  · simp only [forM_report_run, Stoppable.run_get]
    by_cases herrors : (d'.reportAll (strayTargets result)).hasErrors
    · rw [if_pos herrors, if_pos herrors]
      rfl
    · rw [if_neg herrors, if_neg herrors]
      rfl

/-- The stages behind the parts of a document with no foreign node in its code. -/
theorem assemble_constructs (haccepts : grammar.Accepts document)
    (hheader : (Node.ofElement document.root).partsOf .header = [header])
    (hcode : (Node.ofElement document.root).partsOf .code = [code])
    (hconstructs : ∀ n ∈ reachedAll code.children, isConstruct n) (d : Diagnostics) :
    (assemble ⟨grammar, .standard⟩ document order).run d =
      let d' := d.reportAll (Header.remarks header ++ reports order code.children)
      if d'.hasErrors then (.error (.failed d'.errors d'.warnings), d')
      else (.ok ⟨Header.describedBy header, linkAll (labelTable code.children)
        (unlinked code.children).toArray (awaited (placedAll 0 code.children))⟩, d') := by
  rw [assemble_run haccepts hheader hcode, lowerCode_run hconstructs, Diagnostics.reportAll_append]
  simp only [strayTargets_linkAll, Diagnostics.reportAll_nil]

/-- A compile without header or code ends early, and so does one of a document that violates the
grammar or has a part twice. -/
theorem assemble_cases (grammar : Grammar) (document : Document) (d : Diagnostics)
    (strategy : Strategy := .standard) :
    (¬ grammar.Accepts document ∧ ∃ errors warnings,
        (assemble ⟨grammar, strategy⟩ document order).run d =
          (.error (.failed errors warnings), d.reportAll (grammar.violationsOf document))) ∨
      grammar.Accepts document ∧
        ((∃ part, (assemble ⟨grammar, strategy⟩ document order).run d =
            (.error (.fatal (.missingPart part)), d)) ∨
          (∃ errors warnings, (assemble ⟨grammar, strategy⟩ document order).run d =
            (.error (.failed errors warnings),
              d.reportAll (extraParts (Node.ofElement document.root) .header ++
                extraParts (Node.ofElement document.root) .code))) ∨
          ∃ header code, (Node.ofElement document.root).partsOf .header = [header] ∧
            (Node.ofElement document.root).partsOf .code = [code]) := by
  by_cases haccepts : grammar.Accepts document
  · refine .inr ⟨haccepts, ?_⟩
    simp only [assemble, Stoppable.run_bind, Stoppable.run_liftM,
      Grammar.validate_of_accepts haccepts]
    rcases partsOf_cases (Node.ofElement document.root) d with
      ⟨header, code, hheader, hcode, -⟩ | ⟨part, hrun⟩ | ⟨-, hrun⟩
    · exact .inr (.inr ⟨header, code, hheader, hcode⟩)
    · exact .inl ⟨part, by rw [hrun]⟩
    · exact .inr (.inl ⟨_, _, by rw [hrun]⟩)
  · refine .inl ⟨haccepts, ?_⟩
    simp only [assemble, Stoppable.run_bind, Stoppable.run_liftM,
      Grammar.validate_of_not_accepts haccepts, fail_run]
    exact ⟨_, _, rfl⟩

/-- Behind its parts, a document without a foreign node in its code has no errors just when it is a
script. -/
theorem hasErrors_assembled (haccepts : grammar.Accepts document)
    (hheader : (Node.ofElement document.root).partsOf .header = [header])
    (hcode : (Node.ofElement document.root).partsOf .code = [code])
    (hconstructs : ∀ n ∈ reachedAll code.children, isConstruct n) (order : LabelOrder) :
    (({} : Diagnostics).reportAll (Header.remarks header ++ reports order code.children)).hasErrors =
      false ↔ IsScript grammar document header code := by
  rw [Diagnostics.hasErrors_reportAll, errorless_append, Header.errorless_remarks,
    errorless_reports hconstructs]
  constructor
  · rintro ⟨-, hproper, hwellFormed⟩
    exact ⟨haccepts, hheader, hcode, hproper, hwellFormed⟩
  · intro hscript
    exact ⟨rfl, hscript.proper, hscript.wellFormed⟩

theorem assemble_of_isScript (h : IsScript grammar document header code) :
    ((assemble ⟨grammar, .standard⟩ document order).run {}).1 =
      .ok ⟨Header.describedBy header, (linked code.children).toArray⟩ := by
  have hconstructs := h.wellFormed.isConstruct
  have herrors := (hasErrors_assembled h.accepts h.one_header h.one_code hconstructs order).2 h
  rw [assemble_constructs h.accepts h.one_header h.one_code hconstructs, h.wellFormed.linkAll_eq]
  simp only [herrors, Bool.false_eq_true, if_false]

theorem isScript_of_assemble {executable : Executable}
    (h : ((assemble ⟨grammar, .standard⟩ document order).run {}).1 = .ok executable) :
    ∃ header code, IsScript grammar document header code := by
  rcases assemble_cases grammar document {} with ⟨-, _, _, hrun⟩ |
    ⟨haccepts, ⟨_, hrun⟩ | ⟨_, _, hrun⟩ | ⟨header, code, hheader, hcode⟩⟩
  · rw [hrun] at h
    cases h
  · rw [hrun] at h
    cases h
  · rw [hrun] at h
    cases h
  · -- a foreign node would have ended the compile
    have hconstructs : ∀ n ∈ reachedAll code.children, isConstruct n := by
      rw [assemble_run haccepts hheader hcode] at h
      split at h
      next heq => exact lowerCode_eq_ok (congrArg Prod.fst heq)
      next => cases h
    rw [assemble_constructs haccepts hheader hcode hconstructs] at h
    simp only at h
    split at h
    next => cases h
    next herrors =>
      -- the errors of all stages are counted together, and there is none
      rw [Bool.not_eq_true] at herrors
      exact ⟨header, code, (hasErrors_assembled haccepts hheader hcode hconstructs order).1 herrors⟩

/-! ## 4. Compiles -/

/-- What is reported when a compile has ended: the fault that ended it, if there is one. -/
def finalRemarks : Except CompileError Executable → List Diagnostic
  | .error (.fatal fault) => [.aborted fault]
  | _ => []

/-- How far a session is when a compile has ended. -/
def finalStage : Except CompileError Executable → Stage
  | .ok _ => .done
  | .error _ => .failed

/-- A compile begins without entries, whatever was reported before. -/
theorem compile_apply (compiler : Compiler) (document : Document) (order : LabelOrder)
    (session : Session) :
    compiler.compile document order session =
      let ended := (compiler.assemble document order).run {}
      (ended.1,
        { diagnostics := ended.2.reportAll (finalRemarks ended.1), stage := finalStage ended.1 }) := by
  have hreset : session.diagnostics.reset = {} := rfl
  unfold compile
  simp only [Stateful.bind_apply, Stateful.get_apply, hreset]
  rcases (compiler.assemble document order).run {} with ⟨(_ | _ | _) | _, _⟩ <;> rfl

theorem compile_fst (compiler : Compiler) (document : Document) (order : LabelOrder)
    (session : Session) :
    (compiler.compile document order session).1 = ((compiler.assemble document order).run {}).1 := by
  rw [compile_apply]

theorem compile_diagnostics (compiler : Compiler) (document : Document) (order : LabelOrder)
    (session : Session) :
    (compiler.compile document order session).2.diagnostics =
      ((compiler.assemble document order).run {}).2.reportAll
        (finalRemarks ((compiler.assemble document order).run {}).1) := by
  rw [compile_apply]

variable {session : Session} {executable : Executable}

/-- A compile stops because of a missing part, or because of a foreign node in the code. -/
theorem compile_fatal {fault : Fault}
    (h : (compile ⟨grammar, .standard⟩ document order session).1 = .error (.fatal fault)) :
    grammar.Accepts document ∧ ((∃ part, fault = .missingPart part) ∨
      ∃ code stop, (Node.ofElement document.root).partsOf .code = [code] ∧
        foreign? (reachedAll code.children) = some stop ∧
        fault = .unsupported stop.tag stop.trail) := by
  rw [compile_fst] at h
  rcases assemble_cases grammar document {} with ⟨-, _, _, hrun⟩ |
    ⟨haccepts, ⟨part, hrun⟩ | ⟨_, _, hrun⟩ | ⟨header, code, hheader, hcode⟩⟩
  · rw [hrun] at h
    cases h
  · rw [hrun] at h
    cases h
    exact ⟨haccepts, .inl ⟨part, rfl⟩⟩
  · rw [hrun] at h
    cases h
  · cases hstop : foreign? (reachedAll code.children) with
    | none =>
      -- constructs are lowered as a whole, and errors are no faults
      rw [assemble_constructs haccepts hheader hcode (foreign?_eq_none.1 hstop)] at h
      simp only at h
      split at h
      next => cases h
      next => cases h
    | some stop =>
      rw [assemble_run haccepts hheader hcode] at h
      have hfault :=
        @lowerCode_stops code order (Diagnostics.reportAll {} (Header.remarks header)) _ hstop
      split at h
      next heq => cases hfault.symm.trans (congrArg Prod.fst heq)
      next heq =>
        cases hfault.symm.trans (congrArg Prod.fst heq)
        cases h
        exact ⟨haccepts, .inr ⟨code, stop, hcode, hstop, rfl⟩⟩

/-- A compile gives an executable just for a script: its header and its linked code. -/
theorem compile_ok_iff :
    (compile ⟨grammar, .standard⟩ document order session).1 = .ok executable ↔
      ∃ header code, IsScript grammar document header code ∧
        executable = ⟨Header.describedBy header, (linked code.children).toArray⟩ := by
  rw [compile_fst]
  constructor
  · intro h
    obtain ⟨header, code, hscript⟩ := isScript_of_assemble h
    rw [assemble_of_isScript hscript, Except.ok.injEq] at h
    exact ⟨header, code, hscript, h.symm⟩
  · rintro ⟨header, code, hscript, rfl⟩
    exact assemble_of_isScript hscript

/-- The code of an executable is closed: no target is pending, every target is an address of the
code, and the code ends with an instruction that does nothing. -/
theorem compile_code_closed
    (h : (compile ⟨grammar, .standard⟩ document order session).1 = .ok executable) :
    (∀ instruction ∈ executable.code, instruction.isPatchable → instruction.target?.isSome) ∧
      (∀ instruction ∈ executable.code, ∀ target ∈ instruction.target?,
        target < executable.code.size) ∧
      executable.code.back? = some .nop := by
  obtain ⟨header, code, hscript, rfl⟩ := compile_ok_iff.1 h
  refine ⟨fun instruction hmem => ?_, fun instruction hmem => ?_, ?_⟩
  · exact (hscript.wellFormed.linked_closed (List.mem_toArray.1 hmem)).1
  · exact (hscript.wellFormed.linked_closed (List.mem_toArray.1 hmem)).2
  · rw [List.back?_toArray, linked, unlinked, List.map_append, List.map_singleton,
      List.getLast?_concat]
    rfl

/-- A script that counts with gotos, one of which leads back and one to the end. -/
def gotoLoop : Document where
  root := {
    tag := "script"
    children := [
      { tag := "header", attributes := .ofList [("name", "goto_loop"), ("version-number", "1.0")] },
      { tag := "code"
        children := [
          { tag := "set", attributes := .ofList [("name", "i"), ("value", "0"), ("new", "")] },
          { tag := "label", attributes := .ofList [("name", "top")] },
          { tag := "math", attributes := .ofList [("left", "i"), ("oper", "+"), ("value", "1")] },
          { tag := "if"
            attributes := .ofList [("item", "i"), ("value", "10"), ("type", "less")]
            children := [{ tag := "goto", attributes := .ofList [("label", "top")] }] },
          { tag := "goto", attributes := .ofList [("label", "end")] },
          { tag := "return" },
          { tag := "label", attributes := .ofList [("name", "end")] }] }] }

/-- The code of the script. -/
def gotoLoopCode : Code := #[
  .loadLiteral "0", .declareNew "i",
  .loadLiteral "1", .moveRight, .fetch "i", .arith "+", .store "i",
  .loadLiteral "10", .moveRight, .fetch "i", .arith "-", .condJump .less (some 15), .scopeEnter,
  .goto "top" (some 2), .scopeExit, .nop,
  .goto "end" (some 18), .fault, .nop]

theorem compile_gotoLoop :
    ∃ header,
      (compile ⟨.standard, .standard⟩ gotoLoop .byName {}).1 = .ok ⟨header, gotoLoopCode⟩ := by
  have hcode : (compile ⟨.standard, .standard⟩ gotoLoop .byName {}).1.toOption.map Executable.code =
      some gotoLoopCode := by decide +kernel
  cases hresult : (compile ⟨.standard, .standard⟩ gotoLoop .byName {}).1 with
  | error error =>
    rw [hresult] at hcode
    cases hcode
  | ok executable =>
    rw [hresult] at hcode
    exact ⟨executable.header, by rw [← Option.some.inj hcode]⟩

theorem gotoLoop_code_closed :
    ∃ header, (compile ⟨.standard, .standard⟩ gotoLoop .byName {}).1 = .ok ⟨header, gotoLoopCode⟩ ∧
      (∀ instruction ∈ gotoLoopCode, instruction.isPatchable → instruction.target?.isSome) ∧
      (∀ instruction ∈ gotoLoopCode, ∀ target ∈ instruction.target?, target < 19) ∧
      gotoLoopCode.back? = some .nop := by
  obtain ⟨header, hrun⟩ := compile_gotoLoop
  exact ⟨header, hrun, compile_code_closed hrun⟩

/-- The gotos of an executable are the goto nodes of the document, in document order. Each leads to
the place of the label node of its name, of which there is only one. -/
theorem compile_links_gotos
    (h : (compile ⟨grammar, .standard⟩ document order session).1 = .ok executable) :
    ∃ code, (Node.ofElement document.root).partsOf .code = [code] ∧
      (gotosFrom 0 executable.code.toList).map (fun goto => (goto.1, some goto.2.1)) =
        ((placedAll 0 code.children).filter fun place => place.2.kind = .construct .goto).map
          (fun place => (place.1, place.2.attribute? "label")) ∧
      ((reachedAll code.children).filter fun node => node.kind = .construct .label).Pairwise
        (fun a b => a.attribute? "name" ≠ b.attribute? "name") ∧
      ∀ goto ∈ gotosFrom 0 executable.code.toList,
        ∃ place ∈ placedAll 0 code.children,
          (place.2.kind = .construct .label ∧ place.2.attribute? "name" = some goto.2.1) ∧
          goto.2.2 = some place.1 ∧
          ∀ other ∈ placedAll 0 code.children, other.2.kind = .construct .label →
            other.2.attribute? "name" = some goto.2.1 → other = place := by
  obtain ⟨header, code, hscript, rfl⟩ := compile_ok_iff.1 h
  have hnodes := hscript.wellFormed
  refine ⟨code, hscript.one_code, hnodes.gotosFrom_linked, hnodes.labels_pairwise, ?_⟩
  rintro ⟨address, label, target⟩ hgoto
  obtain ⟨-, hat⟩ := mem_gotosFrom.1 hgoto
  rw [Nat.sub_zero] at hat
  obtain ⟨place, hplace, hname, rfl⟩ := hnodes.linked_goto hat
  refine ⟨place, hplace, labelName?_eq_some.1 hname, rfl, fun other hother hkind hname' => ?_⟩
  exact hnodes.label_unique hplace hname hother (labelName?_eq_some.2 ⟨hkind, hname'⟩)

theorem gotoLoop_links_gotos :
    ∃ header, (compile ⟨.standard, .standard⟩ gotoLoop .byName {}).1 = .ok ⟨header, gotoLoopCode⟩ ∧
      gotosFrom 0 gotoLoopCode.toList = [(13, "top", some 2), (16, "end", some 18)] ∧
      ∃ code, (Node.ofElement gotoLoop.root).partsOf .code = [code] ∧
        ∃ place ∈ placedAll 0 code.children, place.2.kind = .construct .label ∧
          place.2.attribute? "name" = some "end" ∧ place.1 = 18 := by
  obtain ⟨header, hrun⟩ := compile_gotoLoop
  have hgotos : gotosFrom 0 gotoLoopCode.toList =
      [(13, "top", some 2), (16, "end", some 18)] := by decide
  obtain ⟨code, hcode, -, -, hlinks⟩ := compile_links_gotos hrun
  obtain ⟨place, hplace, ⟨hkind, hname⟩, htarget, -⟩ :=
    hlinks (16, "end", some 18) (by rw [hgotos]; decide)
  exact ⟨header, hrun, hgotos, code, hcode, place, hplace, hkind, hname,
    (Option.some.inj htarget).symm⟩

/-- A compile succeeds just for scripts. -/
theorem compile_succeeds_iff (grammar : Grammar) (document : Document) (order : LabelOrder)
    (session : Session) :
    (∃ executable, (compile ⟨grammar, .standard⟩ document order session).1 = .ok executable) ↔
      ∃ header code, IsScript grammar document header code := by
  constructor
  · rintro ⟨executable, h⟩
    obtain ⟨header, code, hscript, -⟩ := compile_ok_iff.1 h
    exact ⟨header, code, hscript⟩
  · rintro ⟨header, code, hscript⟩
    exact ⟨_, compile_ok_iff.2 ⟨header, code, hscript, rfl⟩⟩

end Compiler

end TreeScript
