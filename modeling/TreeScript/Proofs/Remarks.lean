import TreeScript.Proofs.Reports
import TreeScript.Proofs.SortedMap
import TreeScript.Proofs.Translation

/-!
# What lowering notes beside the code

A node that lowering reaches may be remarked upon, define a label or leave a fixup. All of this
happens when the node is reached, before its body is looked at, and depends on nothing but the node,
its place and the labels that are known by then. So what lowering notes is a plain function of the
list of placed nodes.

* `remarks` lists what is reported about one node.
* `defineAll` and `awaited` are the labels and the fixups of placed nodes.
* `State.advance` is the state behind placed nodes and their code.
-/

namespace TreeScript.Lowering

/-! ## 1. Remarks -/

/-- The remark that an attribute is absent. -/
def absence (node : Node) (key : String) : List Diagnostic :=
  if node.hasAttribute key then [] else [.attributeAbsent node.trail node.tag key]

/-- The remark that sources of lower precedence are ignored. -/
def Sources.ignored (sources : Sources) (node : Node) : List Diagnostic :=
  match sources.present node with
  | (key, _) :: next :: rest =>
    [.sourcesIgnored node.trail node.tag key ((next :: rest).map Prod.fst)]
  | _ => []

/-- The remarks on the value of a node that needs one. -/
def Sources.remarks (sources : Sources) (node : Node) : List Diagnostic :=
  if sources.present node = [] then [.sourceAbsent node.trail node.tag sources.keys]
  else sources.ignored node

/-- The remark that a comparison cannot be used. -/
def comparisonRemarks (node : Node) (allowed : List Condition) : List Diagnostic :=
  match node.attribute? "type" with
  | none => []
  | some flag =>
    if ((Condition.ofFlag? flag).filter (allowed.contains ·)).isSome then []
    else [.unsupportedComparison node.trail node.tag flag]

/-- The remarks on a variable being set. -/
def setRemarks (node : Node) : List Diagnostic :=
  absence node "name" ++ Sources.general.remarks node

/-- The remarks on the parameters of a call. -/
def parameterRemarks (node : Node) : List Diagnostic :=
  node.children.flatMap fun child =>
    if child.kind = .construct .set then setRemarks child
    else [.notParameter child.trail child.tag]

/-- The remark that a buffer without anything to append is cleared. -/
def clearRemarks (node : Node) : List Diagnostic :=
  if !node.hasAttribute "clear" && (appendedTo node).isEmpty then
    [.bufferCleared node.trail (operand node "name")]
  else []

/-- The remarks on a construct itself, its body apart. -/
def constructRemarks (construct : Construct) (node : Node) : List Diagnostic :=
  match construct with
  | .block | .ret => []
  | .ifThen =>
    absence node "item" ++ Sources.general.remarks node ++ comparisonRemarks node ifConditions
  | .whileLoop | .set => setRemarks node
  | .forLoop => absence node "name" ++ Sources.count.remarks node
  | .assertion => absence node "item" ++ comparisonRemarks node assertConditions
  | .input => absence node "name" ++ Sources.unreferenced.remarks node
  | .buffer => absence node "name" ++ Sources.unreferenced.ignored node ++ clearRemarks node
  | .math => absence node "left" ++ absence node "oper" ++ Sources.general.remarks node
  | .goto => absence node "label"
  | .label => absence node "name"
  | .call | .exec | .subroutine => absence node "name" ++ parameterRemarks node
  | .memberCall => absence node "name" ++ absence node "method" ++ parameterRemarks node

/-- The remarks on a node itself. -/
def remarks (node : Node) : List Diagnostic :=
  match node.kind with
  | .construct c => constructRemarks c node
  | _ => []

section Kinds

-- each of these remarks is of one kind, so a look at that kind settles whether any of them is kept
variable {p : Diagnostic → Bool} {node : Node}

theorem filter_absence (h : ∀ trail tag key, p (.attributeAbsent trail tag key) = false)
    (key : String) : (absence node key).filter p = [] := by
  unfold absence
  split
  · rfl
  · exact List.filter_cons_of_neg (Bool.eq_false_iff.1 (h _ _ _))

theorem filter_comparison (h : ∀ trail tag flag, p (.unsupportedComparison trail tag flag) = false)
    (allowed : List Condition) : (comparisonRemarks node allowed).filter p = [] := by
  unfold comparisonRemarks
  split
  · rfl
  · split
    · rfl
    · exact List.filter_cons_of_neg (Bool.eq_false_iff.1 (h _ _ _))

theorem filter_clear (h : ∀ trail name, p (.bufferCleared trail name) = false) :
    (clearRemarks node).filter p = [] := by
  unfold clearRemarks
  split
  · exact List.filter_cons_of_neg (Bool.eq_false_iff.1 (h _ _))
  · rfl

end Kinds

/-! ## 2. Labels and gotos -/

/-- The name of a label. -/
def labelName? (node : Node) : Option String :=
  if node.kind = .construct .label then node.attribute? "name" else none

/-- The label that a goto asks for. -/
def gotoLabel? (node : Node) : Option String :=
  if node.kind = .construct .goto then node.attribute? "label" else none

/-- The labels of placed nodes with their addresses, in document order. -/
def labelsOf (places : List (Nat × Node)) : List (String × Nat) :=
  places.filterMap fun place => (labelName? place.2).map (·, place.1)

/-- The fixups of placed nodes, in document order. -/
def awaited (places : List (Nat × Node)) : List Fixup :=
  places.filterMap fun place => (gotoLabel? place.2).map (⟨·, place.1⟩)

/-- Records the label of a placed node, unless it is known. -/
def defineAt (labels : SortedMap Nat) (place : Nat × Node) : SortedMap Nat :=
  match labelName? place.2 with
  | none => labels
  | some name => if labels.contains name then labels else labels.insert name place.1

/-- Records the labels of placed nodes. -/
def defineAll (labels : SortedMap Nat) (places : List (Nat × Node)) : SortedMap Nat :=
  places.foldl defineAt labels

/-- The remark that a label was known before. -/
def redefinition (labels : SortedMap Nat) (node : Node) : List Diagnostic :=
  match labelName? node with
  | none => []
  | some name =>
    match labels.get? name with
    | some first => [.labelRedefined node.trail name first]
    | none => []

/-- The remarks on placed nodes, where the labels given are known beforehand. -/
def remarksAll (labels : SortedMap Nat) : List (Nat × Node) → List Diagnostic
  | [] => []
  | place :: places =>
    remarks place.2 ++ redefinition labels place.2 ++ remarksAll (defineAt labels place) places

theorem defineAll_append (labels : SortedMap Nat) (first second : List (Nat × Node)) :
    defineAll labels (first ++ second) = defineAll (defineAll labels first) second :=
  List.foldl_append

theorem labelsOf_cons (place : Nat × Node) (places : List (Nat × Node)) :
    labelsOf (place :: places) =
      ((labelName? place.2).map (·, place.1)).toList ++ labelsOf places := by
  rw [labelsOf, List.filterMap_cons]
  cases labelName? place.2 <;> rfl

/-- A label that is known keeps its address; any other one gets the address of its first node. -/
theorem get?_defineAll (labels : SortedMap Nat) (places : List (Nat × Node)) (name : String) :
    (defineAll labels places).get? name = (labels.get? name).or ((labelsOf places).lookup name) := by
  induction places generalizing labels with
  | nil => exact Option.or_none.symm
  | cons place places ih =>
    rw [defineAll, List.foldl_cons, ← defineAll, ih, labelsOf_cons, defineAt]
    cases labelName? place.2 with
    | none => rfl
    | some label =>
      rw [Option.map_some, Option.toList_some, List.singleton_append, SortedMap.lookup_cons_eq_ite]
      -- the first definition of a name counts, so a known name is not inserted again
      by_cases hknown : labels.contains label = true
      · simp only [if_pos hknown]
        by_cases hname : name = label
        · obtain ⟨first, hfirst⟩ := Option.isSome_iff_exists.1 hknown
          rw [hname, hfirst, Option.some_or, Option.some_or]
        · rw [if_neg hname]
      · simp only [if_neg hknown, SortedMap.get?_insert]
        by_cases hname : name = label
        · have hfree : labels.get? label = none := Option.not_isSome_iff_eq_none.1 hknown
          rw [if_pos hname, if_pos hname, hname, hfree, Option.some_or, Option.none_or]
        · rw [if_neg hname, if_neg hname]

theorem awaited_append (first second : List (Nat × Node)) :
    awaited (first ++ second) = awaited first ++ awaited second :=
  List.filterMap_append

theorem remarksAll_append (labels : SortedMap Nat) (first second : List (Nat × Node)) :
    remarksAll labels (first ++ second) =
      remarksAll labels first ++ remarksAll (defineAll labels first) second := by
  induction first generalizing labels with
  | nil => rfl
  | cons place places ih =>
    simp only [List.cons_append, remarksAll, ih, List.append_assoc]
    rfl

/-! ## 3. States -/

namespace State

/-- The state after code was emitted and entries were reported. -/
def extend (s : State) (code : List Instruction) (entries : List Diagnostic) : State :=
  { s with code := s.code ++ code.toArray, diagnostics := s.diagnostics.reportAll entries }

/-- The state after nodes at their places were lowered to code. -/
def advance (s : State) (places : List (Nat × Node)) (code : List Instruction) : State where
  code := s.code ++ code.toArray
  labels := defineAll s.labels places
  order := s.order
  fixups := s.fixups ++ (awaited places).toArray
  diagnostics := s.diagnostics.reportAll (remarksAll s.labels places)

theorem size_extend (s : State) (code : List Instruction) (entries : List Diagnostic) :
    (s.extend code entries).code.size = s.code.size + code.length := by
  simp only [extend, Array.size_append, List.size_toArray]

theorem size_advance (s : State) (places : List (Nat × Node)) (code : List Instruction) :
    (s.advance places code).code.size = s.code.size + code.length := by
  simp only [advance, Array.size_append, List.size_toArray]

theorem extend_extend (s : State) (code code' : List Instruction)
    (entries entries' : List Diagnostic) :
    (s.extend code entries).extend code' entries' = s.extend (code ++ code') (entries ++ entries') := by
  simp only [extend, Diagnostics.reportAll_append, Array.append_assoc, List.append_toArray]

theorem extend_nil (s : State) : s.extend [] [] = s := by
  simp only [extend, Array.append_empty, Diagnostics.reportAll_nil]

theorem advance_nil (s : State) : s.advance [] [] = s := by
  simp only [advance, defineAll, awaited, remarksAll, List.foldl_nil, List.filterMap_nil,
    Array.append_empty, Diagnostics.reportAll_nil]

/-- What comes of nodes in a row is what comes of the first ones, then of the others. -/
theorem advance_advance (s : State) (places places' : List (Nat × Node))
    (code code' : List Instruction) :
    (s.advance places code).advance places' code' =
      s.advance (places ++ places') (code ++ code') := by
  simp only [advance, defineAll_append, awaited_append, remarksAll_append,
    Diagnostics.reportAll_append, Array.append_assoc, List.append_toArray]

theorem advance_extend (s : State) (places : List (Nat × Node)) (code code' : List Instruction) :
    (s.advance places code).extend code' [] = s.advance places (code ++ code') := by
  simp only [advance, extend, Diagnostics.reportAll_nil, Array.append_assoc, List.append_toArray]

/-- What comes of a single node. -/
theorem advance_singleton (s : State) (place : Nat × Node) (code : List Instruction) :
    s.advance [place] code =
      { code := s.code ++ code.toArray
        labels := defineAt s.labels place
        order := s.order
        fixups := s.fixups ++ ((gotoLabel? place.2).map (Fixup.mk · place.1)).toList.toArray
        diagnostics :=
          s.diagnostics.reportAll (remarks place.2 ++ redefinition s.labels place.2) } := by
  have hfixups : awaited [place] = ((gotoLabel? place.2).map (Fixup.mk · place.1)).toList := by
    simp only [awaited, List.filterMap_cons, List.filterMap_nil]
    cases gotoLabel? place.2 <;> rfl
  simp only [advance, defineAll, List.foldl_cons, List.foldl_nil, hfixups, remarksAll,
    List.append_nil]

/-- A node that is neither a label nor a goto adds its code and its remarks. -/
theorem extend_eq_advance (s : State) {node : Node} (address : Nat) (code : List Instruction)
    (hlabel : node.kind ≠ .construct .label) (hgoto : node.kind ≠ .construct .goto) :
    s.extend code (remarks node) = s.advance [(address, node)] code := by
  have hname : labelName? node = none := if_neg hlabel
  have htarget : gotoLabel? node = none := if_neg hgoto
  simp only [advance_singleton, extend, defineAt, redefinition, hname, htarget, Option.map_none,
    Option.toList_none, Array.append_empty, List.append_nil]

end State

end TreeScript.Lowering
