import TreeScript.Lowering.Header
import TreeScript.Proofs.Reports

/-!
# Headers

Reading a header never ends a compile: what is wrong with it is reported, and a stand-in is used. It
is without errors just when it has a name and a version.
-/

namespace TreeScript.Header

/-! ## 1. What is read -/

/-- The header that a node describes; what is missing has a stand-in. -/
def describedBy (node : Node) : Header where
  name := (node.attribute? "name").getD ""
  uid := node.attribute? "uid"
  version := ((node.attribute? "version-number").bind Version.parse?).getD ⟨0, 0⟩
  note := noteOf node
  output := (node.partsOf .output).head?.map fun first =>
    ⟨(first.attribute? "name").getD "", first.attribute? "type"⟩

/-- The remark on a version. -/
def versionRemarks (node : Node) : List Diagnostic :=
  match node.attribute? "version-number" with
  | none => [.versionlessHeader node.trail]
  | some version =>
    if (Version.parse? version).isSome then [] else [.badVersion node.trail version]

/-- The remarks on a header. -/
def remarks (node : Node) : List Diagnostic :=
  (if node.hasAttribute "name" then [] else [.namelessHeader node.trail]) ++ versionRemarks node ++
    ((node.partsOf .output).drop 1).map fun output => .extraOutput output.trail

/-- A header with a name and a version. -/
structure Proper (node : Node) : Prop where
  named : node.hasAttribute "name"
  versioned : ∃ version, node.attribute? "version-number" = some version ∧
    (Version.parse? version).isSome

/-! ## 2. Reading -/

theorem nameOf_apply (node : Node) (d : Diagnostics) :
    nameOf node d = ((node.attribute? "name").getD "",
      d.reportAll (if node.hasAttribute "name" then [] else [.namelessHeader node.trail])) := by
  unfold nameOf Node.hasAttribute SortedMap.contains Node.attribute?
  cases node.attributes.get? "name" <;> rfl

theorem versionOf_apply (node : Node) (d : Diagnostics) :
    versionOf node d = (((node.attribute? "version-number").bind Version.parse?).getD ⟨0, 0⟩,
      d.reportAll (versionRemarks node)) := by
  unfold versionOf versionRemarks
  cases node.attribute? "version-number" with
  | none => rfl
  | some version => cases hparse : Version.parse? version <;> simp [hparse] <;> rfl

theorem outputOf_apply (node : Node) (d : Diagnostics) :
    outputOf node d = ((node.partsOf .output).head?.map fun first =>
        ⟨(first.attribute? "name").getD "", first.attribute? "type"⟩,
      d.reportAll (((node.partsOf .output).drop 1).map fun output => .extraOutput output.trail)) := by
  unfold outputOf
  cases node.partsOf .output with
  | nil => rfl
  | cons first extra =>
    simp only [Stateful.bind_apply, Reporting.forM_report_map, Stateful.pure_apply,
      List.head?_cons, List.drop_one, List.tail_cons, Option.map_some]

theorem ofNode_apply (node : Node) (d : Diagnostics) :
    ofNode node d = (describedBy node, d.reportAll (remarks node)) := by
  simp only [ofNode, Stateful.bind_apply, nameOf_apply, versionOf_apply, outputOf_apply,
    Stateful.pure_apply, describedBy, remarks, Diagnostics.reportAll_append]

/-- More than one output is worth a warning only. -/
theorem errorless_outputs (node : Node) :
    Errorless (((node.partsOf .output).drop 1).map fun output => .extraOutput output.trail) := by
  intro entry hentry
  obtain ⟨output, -, rfl⟩ := List.mem_map.1 hentry
  rfl

/-- Nothing about a header is an error just when it has a name and a version. -/
theorem errorless_remarks {node : Node} : Errorless (remarks node) ↔ Proper node := by
  have hname : Errorless (if node.hasAttribute "name" then [] else [.namelessHeader node.trail]) ↔
      node.hasAttribute "name" := by
    by_cases h : node.hasAttribute "name"
    · simp [h]
    · simp [h, Diagnostic.isError, Diagnostic.severity]
  have hversion : Errorless (versionRemarks node) ↔
      ∃ version, node.attribute? "version-number" = some version ∧
        (Version.parse? version).isSome := by
    unfold versionRemarks
    cases node.attribute? "version-number" with
    | none => simp [Diagnostic.isError, Diagnostic.severity]
    | some version =>
      by_cases h : (Version.parse? version).isSome
      · simp [h]
      · simp [h, Diagnostic.isError, Diagnostic.severity]
  rw [remarks, errorless_append, errorless_append, hname, hversion]
  constructor
  · rintro ⟨⟨hnamed, hversioned⟩, -⟩
    exact ⟨hnamed, hversioned⟩
  · rintro ⟨hnamed, hversioned⟩
    exact ⟨⟨hnamed, hversioned⟩, errorless_outputs node⟩

end TreeScript.Header
