import TreeScript.Proofs.Gate

/-!
# What is reported about labels

Labels are recorded while the nodes are lowered, gotos wait in a list, and only when all of them are
linked it is known which labels are asked for. Together the stages report what can be read off the
document: labels whose name was taken, gotos whose label does not exist, and labels that no goto names.
-/

namespace TreeScript

/-- Whether an entry is about a label: its name is taken, it does not exist, or it is not used. -/
def Diagnostic.isAboutLabel : Diagnostic → Bool
  | .labelRedefined .. | .labelUndefined .. | .labelUnused .. => true
  | _ => false

namespace Lowering

/-! ## 1. Labels and gotos of a document -/

/-- A label node behind others, if one of them has its name: the node, the name and the address of the
first label with that name. -/
def repeatOf? (before : List (Nat × Node)) (node : Node) : Option (Node × String × Nat) :=
  (labelName? node).bind fun name => ((labelsOf before).lookup name).map (node, name, ·)

/-- The named label nodes behind the first of their names, in document order. -/
def repeatedLabels (nodes : List Node) : List (Node × String × Nat) :=
  (placedAll 0 nodes).zipIdx.filterMap fun entry =>
    repeatOf? ((placedAll 0 nodes).take entry.2) entry.1.2

/-- The gotos whose labels do not exist, in document order, each with its address. -/
def danglingGotos (nodes : List Node) : List (Nat × String) :=
  (placedAll 0 nodes).filterMap fun place =>
    ((gotoLabel? place.2).filter (· ∉ labelNames (reachedAll nodes))).map (place.1, ·)

/-! ## 2. Entries of lowering -/

section Entries

variable {node : Node}

theorem filter_ignored (sources : Sources) :
    (sources.ignored node).filter Diagnostic.isAboutLabel = [] := by
  unfold Sources.ignored
  split <;> rfl

theorem filter_sources (sources : Sources) :
    (sources.remarks node).filter Diagnostic.isAboutLabel = [] := by
  unfold Sources.remarks
  split
  · rfl
  · exact filter_ignored sources

theorem filter_set : (setRemarks node).filter Diagnostic.isAboutLabel = [] := by
  rw [setRemarks, List.filter_append, filter_absence (fun _ _ _ => rfl), filter_sources,
    List.nil_append]

theorem filter_parameters : (parameterRemarks node).filter Diagnostic.isAboutLabel = [] := by
  rw [parameterRemarks, List.filter_flatMap, List.flatMap_eq_nil_iff]
  intro child _
  split
  · exact filter_set
  · rfl

/-- Apart from names that are taken, nothing that is said about a node itself is about labels. -/
theorem filter_remarks (node : Node) : (remarks node).filter Diagnostic.isAboutLabel = [] := by
  unfold remarks
  split
  next c _ =>
    cases c <;>
      simp only [constructRemarks, List.filter_append, List.filter_nil, filter_ignored, filter_sources,
        filter_absence (p := Diagnostic.isAboutLabel) (fun _ _ _ => rfl), filter_parameters, filter_set,
        filter_comparison (p := Diagnostic.isAboutLabel) (fun _ _ _ => rfl),
        filter_clear (p := Diagnostic.isAboutLabel) (fun _ _ => rfl), List.append_nil]
  next => rfl

theorem redefinition_eq (before : List (Nat × Node)) (node : Node) :
    redefinition (defineAll ∅ before) node =
      (repeatOf? before node).toList.map fun label =>
        .labelRedefined label.1.trail label.2.1 label.2.2 := by
  unfold redefinition repeatOf?
  cases labelName? node with
  | none => rfl
  | some name =>
    have hknown : (defineAll ∅ before).get? name = (labelsOf before).lookup name := by
      rw [get?_defineAll, SortedMap.get?_empty, Option.none_or]
    simp only [hknown, Option.bind_some]
    cases (labelsOf before).lookup name <;> rfl

/-- The entries about labels while nodes are lowered behind others. -/
theorem filter_remarksAll (before places : List (Nat × Node)) :
    (remarksAll (defineAll ∅ before) places).filter Diagnostic.isAboutLabel =
      ((places.zipIdx before.length).filterMap fun entry =>
        repeatOf? ((before ++ places).take entry.2) entry.1.2).map fun label =>
          .labelRedefined label.1.trail label.2.1 label.2.2 := by
  -- the labels that are known when a node is reached are those of the nodes before it
  induction places generalizing before with
  | nil => rfl
  | cons place places ih =>
    have hbehind : defineAt (defineAll ∅ before) place = defineAll ∅ (before ++ [place]) := by
      rw [defineAll_append]
      rfl
    have hrest := ih (before ++ [place])
    rw [List.length_append, List.length_singleton, List.append_assoc, List.singleton_append] at hrest
    rw [remarksAll, List.filter_append, List.filter_append, filter_remarks, List.nil_append, hbehind,
      hrest, redefinition_eq, List.zipIdx_cons, List.filterMap_cons, List.take_left]
    cases repeatOf? before place.2 with
    | none => rfl
    | some label => rfl

end Entries

/-! ## 3. Entries of linking -/

theorem undefinedAmong_awaited (nodes : List Node) :
    (undefinedAmong (labelTable nodes) (awaited (placedAll 0 nodes))).map
        (fun fixup => (fixup.address, fixup.label)) = danglingGotos nodes := by
  rw [undefinedAmong, awaited, danglingGotos, List.filter_filterMap, List.map_filterMap]
  congr 1
  funext place
  cases gotoLabel? place.2 with
  | none => rfl
  | some label =>
    by_cases hknown : label ∈ labelNames (reachedAll nodes)
    · have hcontains := contains_labelTable.2 hknown
      simp [Option.filter_some, hknown, hcontains]
    · have hcontains := mt contains_labelTable.1 hknown
      simp [Option.filter_some, hknown, hcontains]

/-- What is reported about the labels of nodes: names that are taken, then gotos without a label, then
labels without a goto. -/
theorem filter_reports (order : LabelOrder) (nodes : List Node) :
    (reports order nodes).filter Diagnostic.isAboutLabel =
      (repeatedLabels nodes).map (fun label =>
        .labelRedefined label.1.trail label.2.1 label.2.2) ++
      (danglingGotos nodes).map (fun goto => .labelUndefined goto.1 goto.2) ++
      (unusedLabels order (labelTable nodes) (awaited (placedAll 0 nodes))).map fun label =>
        .labelUnused label.1 label.2 := by
  have hrepeated := filter_remarksAll [] (placedAll 0 nodes)
  have hdangling : (awaited (placedAll 0 nodes)).flatMap (undefinedRemarks (labelTable nodes)) =
      (danglingGotos nodes).map fun goto => .labelUndefined goto.1 goto.2 := by
    rw [flatMap_undefinedRemarks, ← undefinedAmong_awaited, List.map_map]
    rfl
  -- what linking reports is about labels throughout
  have hlinking : ∀ entry ∈ (danglingGotos nodes).map (fun goto =>
        Diagnostic.labelUndefined goto.1 goto.2) ++
      unusedRemarks order (labelTable nodes) (awaited (placedAll 0 nodes)), entry.isAboutLabel := by
    rw [unusedRemarks, List.forall_mem_append, List.forall_mem_map, List.forall_mem_map]
    exact ⟨fun _ _ => rfl, fun _ _ => rfl⟩
  rw [reports, List.filter_append, hdangling, List.filter_eq_self.2 hlinking, ← List.append_assoc]
  exact congrArg (· ++ _ ++ _) hrepeated

/-- Lowering that gets through its nodes has found constructs only. -/
theorem isConstruct_of_lowerAll_ok {nodes : List Node} {s : State}
    (h : ((lowerAll nodes).run s).1 = .ok ()) : ∀ n ∈ reachedAll nodes, isConstruct n := by
  cases hstop : foreign? (reachedAll nodes) with
  | none => exact foreign?_eq_none.1 hstop
  | some stop => cases (lowerAll_stops hstop s).symm.trans h

end Lowering

/-! ## 4. Compiles -/

theorem Header.filter_remarks (node : Node) :
    (Header.remarks node).filter Diagnostic.isAboutLabel = [] := by
  rw [Header.remarks, List.filter_append, List.filter_append]
  have hname : (if node.hasAttribute "name" then [] else
      [Diagnostic.namelessHeader node.trail]).filter Diagnostic.isAboutLabel = [] := by
    split <;> rfl
  have hversion : (Header.versionRemarks node).filter Diagnostic.isAboutLabel = [] := by
    unfold Header.versionRemarks
    split
    · rfl
    · split <;> rfl
  have houtput : (((node.partsOf .output).drop 1).map fun output =>
      Diagnostic.extraOutput output.trail).filter Diagnostic.isAboutLabel = [] := by
    rw [List.filter_eq_nil_iff, List.forall_mem_map]
    intro _ _ h
    cases h
  rw [hname, hversion, houtput]
  rfl

namespace Compiler

open Lowering

variable {grammar : Grammar} {document : Document} {order : LabelOrder} {header code : Node}

/-- What a compile reports that gets as far as linking. Errors and warnings stay as they were reported,
whether or not an executable is handed out. -/
theorem entries_of_constructs (hadmitted : Admitted grammar document header code)
    (hconstructs : ∀ n ∈ reachedAll code.children, isConstruct n) (session : Session) :
    (compile ⟨grammar, .standard⟩ document order session).2.diagnostics.entries.toList =
      Header.remarks header ++ reports order code.children := by
  obtain ⟨hheader, hcode⟩ := hadmitted.one_each
  have hentries : (({} : Diagnostics).reportAll (Header.remarks header ++ reports order code.children)
      ).entries.toList = Header.remarks header ++ reports order code.children := by
    rw [Diagnostics.entries_reportAll, Array.toList_append]
    rfl
  rw [compile_diagnostics, assemble_constructs hadmitted.accepts hheader hcode hconstructs]
  simp only
  split
  next => exact hentries
  next => exact hentries

/-- The reports on labels are sound and complete. If a compile gets as far as linking, then it reports
each named label node behind the first of its name, with the address of the first, each goto with a
label that no node has, and each label that no goto names, with its first address. Of these kinds
nothing else is reported. Labels and gotos come in document order, unused labels by their addresses. -/
theorem compile_label_reports (hadmitted : Admitted grammar document header code)
    (hlowered : ((Strategy.standard code).run
      { order, diagnostics := (Header.ofNode header {}).2 }).1 = .ok ()) (session : Session) :
    ∃ unused : List (String × Nat),
      (∀ name address, (name, address) ∈ unused ↔
        (labelsOf (placedAll 0 code.children)).lookup name = some address ∧
          name ∉ gotoLabels (reachedAll code.children)) ∧
      unused.Nodup ∧ (unused.Pairwise fun a b => a.2 ≤ b.2) ∧
      (compile ⟨grammar, .standard⟩ document order session).2.diagnostics.entries.toList.filter
          Diagnostic.isAboutLabel =
        (repeatedLabels code.children).map (fun label =>
          .labelRedefined label.1.trail label.2.1 label.2.2) ++
        (danglingGotos code.children).map (fun goto => .labelUndefined goto.1 goto.2) ++
        unused.map fun label => .labelUnused label.1 label.2 := by
  refine ⟨unusedLabels order (labelTable code.children) (awaited (placedAll 0 code.children)),
    fun name address => ?_, nodup_unusedLabels _ _ _, unusedLabels_pairwise _ _ _, ?_⟩
  · rw [mem_unusedLabels, get?_labelTable, ← awaited_labels, List.mem_map]
    simp only [not_exists, not_and]
  · have hconstructs := isConstruct_of_lowerAll_ok hlowered
    rw [entries_of_constructs hadmitted hconstructs, List.filter_append, Header.filter_remarks,
      List.nil_append, filter_reports]

/-- A code with a label too many, gotos that lead nowhere, and two labels that no goto asks for. One of
these stands at the same address as another label. -/
def tangle : Document where
  root := {
    tag := "script"
    children := [
      { tag := "header", attributes := .ofList [("name", "tangle"), ("version-number", "1.0")] },
      { tag := "code"
        children := [
          { tag := "label", attributes := .ofList [("name", "top")] },
          { tag := "label", attributes := .ofList [("name", "spare")] },
          { tag := "label" },
          { tag := "goto", attributes := .ofList [("label", "top")] },
          { tag := "block"
            children := [
              { tag := "label", attributes := .ofList [("name", "top")] },
              { tag := "goto", attributes := .ofList [("label", "lost")] },
              { tag := "goto" }] },
          { tag := "label", attributes := .ofList [("name", "end")] }] }] }

theorem tangle_label_reports :
    ∃ header code, Admitted lenient tangle header code ∧
      ((Strategy.standard code).run { diagnostics := (Header.ofNode header {}).2 }).1 = .ok () ∧
      ∃ unused : List (String × Nat), ("spare", 0) ∈ unused ∧ ("end", 5) ∈ unused ∧
        (unused.Pairwise fun a b => a.2 ≤ b.2) ∧
        (compile ⟨lenient, .standard⟩ tangle .byName {}).2.diagnostics.entries.toList.filter
            Diagnostic.isAboutLabel =
          [.labelRedefined ⟨"script", [("code", 1), ("block", 4), ("label", 0)]⟩ "top" 0,
            .labelUndefined 2 "lost"] ++ unused.map fun label => .labelUnused label.1 label.2 := by
  obtain ⟨root, hroot⟩ := Option.isSome_iff_exists.1
    (by decide +kernel : (lenient.validate tangle {}).1.isSome)
  have haccepts := (Grammar.accepts_of_validate hroot).1
  obtain ⟨header, hheader⟩ := List.length_eq_one_iff.1
    (by decide +kernel : ((Node.ofElement tangle.root).partsOf .header).length = 1)
  obtain ⟨code, hcode⟩ := List.length_eq_one_iff.1
    (by decide +kernel : ((Node.ofElement tangle.root).partsOf .code).length = 1)
  have hadmitted := admitted_of_parts haccepts hheader hcode
  -- what can be computed of the code, which is the only one among the parts
  have hfacts : ∀ code ∈ (Node.ofElement tangle.root).partsOf .code,
      (∀ n ∈ reachedAll code.children, isConstruct n) ∧
      (labelsOf (placedAll 0 code.children)).lookup "spare" = some 0 ∧
      (labelsOf (placedAll 0 code.children)).lookup "end" = some 5 ∧
      gotoLabels (reachedAll code.children) = ["top", "lost"] ∧
      danglingGotos code.children = [(2, "lost")] ∧
      (repeatedLabels code.children).map (fun label =>
          Diagnostic.labelRedefined label.1.trail label.2.1 label.2.2) =
        [.labelRedefined ⟨"script", [("code", 1), ("block", 4), ("label", 0)]⟩ "top" 0] := by
    decide +kernel
  obtain ⟨hconstructs, hspare, hend, hgotos, hdangling, hrepeated⟩ :=
    hfacts code (hcode ▸ List.mem_singleton_self code)
  have hlowered : ((Strategy.standard code).run { diagnostics := (Header.ofNode header {}).2 }).1 =
      .ok () := congrArg Prod.fst (lowerAll_lowers hconstructs _)
  obtain ⟨unused, hunused, -, hordered, hentries⟩ := compile_label_reports hadmitted hlowered {}
  refine ⟨header, code, hadmitted, hlowered, unused, (hunused _ _).2 ⟨hspare, ?_⟩,
    (hunused _ _).2 ⟨hend, ?_⟩, hordered, hentries.trans ?_⟩
  · rw [hgotos]
    decide
  · rw [hgotos]
    decide
  · rw [hdangling, hrepeated]
    rfl

end Compiler

end TreeScript
