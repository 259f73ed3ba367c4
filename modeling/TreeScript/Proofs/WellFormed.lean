import TreeScript.Proofs.Linking

/-!
# Well-formed code

What the nodes of a code need so that nothing about them is reported as an error. `needs` says it
for each construct; besides, the labels of a code have different names, and every goto leads to one
of them.
-/

namespace TreeScript.Lowering

/-! ## 1. The needs of constructs -/

/-- What a construct needs. -/
structure Needs where
  /-- Attributes that must be there. -/
  attributes : List String := []
  /-- Attributes of which one must be there, if there are any. -/
  sources : List String := []
  /-- The values that the attribute `type` may have; it may also be absent. -/
  comparisons : Option (List String) := none
deriving DecidableEq, Repr

/-- A node that has what is needed. -/
def Needs.MetBy (needs : Needs) (node : Node) : Prop :=
  (∀ key ∈ needs.attributes, node.hasAttribute key) ∧
    (needs.sources ≠ [] → ∃ key ∈ needs.sources, node.hasAttribute key) ∧
    ∀ flags ∈ needs.comparisons, ∀ flag ∈ node.attribute? "type", flag ∈ flags

instance (needs : Needs) (node : Node) : Decidable (needs.MetBy node) :=
  inferInstanceAs (Decidable (_ ∧ _ ∧ _))

/-- What a construct needs by itself. -/
def needs : Construct → Needs
  | .block | .ret => {}
  | .ifThen =>
    { attributes := ["item"]
      sources := ["eval", "value", "ref", "buffer"]
      comparisons := some ["equal", "less", "greater", "not"] }
  | .whileLoop | .set =>
    { attributes := ["name"], sources := ["eval", "value", "ref", "buffer"] }
  | .forLoop => { attributes := ["name"], sources := ["eval", "count", "ref", "buffer"] }
  | .assertion => { attributes := ["item"], comparisons := some ["equal", "not"] }
  | .input => { attributes := ["name"], sources := ["eval", "value", "buffer"] }
  | .math => { attributes := ["left", "oper"], sources := ["eval", "value", "ref", "buffer"] }
  | .goto => { attributes := ["label"] }
  | .buffer | .label | .call | .exec | .subroutine => { attributes := ["name"] }
  | .memberCall => { attributes := ["name", "method"] }

/-- Whether the children of a construct are parameters. -/
def takesParameters : Construct → Bool
  | .call | .exec | .subroutine | .memberCall => true
  | _ => false

/-- A construct that has what it needs. The parameters of a call set variables. -/
def Complete (construct : Construct) (node : Node) : Prop :=
  (needs construct).MetBy node ∧
    (takesParameters construct → ∀ child ∈ node.children,
      child.kind = .construct .set ∧ (needs .set).MetBy child)

instance (construct : Construct) (node : Node) : Decidable (Complete construct node) :=
  inferInstanceAs (Decidable (_ ∧ _))

/-! ## 2. Codes -/

/-- The names of the labels among nodes. -/
def labelNames (nodes : List Node) : List String :=
  nodes.filterMap labelName?

/-- The labels that gotos among nodes ask for. -/
def gotoLabels (nodes : List Node) : List String :=
  nodes.filterMap gotoLabel?

/-- Nodes whose code can be executed: every node that is reached is a construct with all it needs,
no two labels have the same name, and every goto leads to a label. -/
structure WellFormed (nodes : List Node) : Prop where
  complete : ∀ node ∈ reachedAll nodes, ∃ c, node.kind = .construct c ∧ Complete c node
  distinct : (labelNames (reachedAll nodes)).Nodup
  resolved : ∀ label ∈ gotoLabels (reachedAll nodes), label ∈ labelNames (reachedAll nodes)

/-! ## 3. Constructs without errors -/

theorem errorless_absence {node : Node} {key : String} :
    Errorless (absence node key) ↔ node.hasAttribute key := by
  unfold absence
  by_cases h : node.hasAttribute key
  · simp [h]
  · simp [h, Diagnostic.isError, Diagnostic.severity]

/-- Ignored sources are worth a warning only. -/
theorem errorless_ignored (sources : Sources) (node : Node) : Errorless (sources.ignored node) := by
  unfold Sources.ignored
  split
  · simp [Diagnostic.isError, Diagnostic.severity]
  · exact errorless_nil

theorem present_ne_nil {sources : Sources} {node : Node} :
    sources.present node ≠ [] ↔ ∃ key ∈ sources.keys, node.hasAttribute key := by
  unfold Sources.present Sources.keys
  rw [ne_eq, List.filterMap_eq_nil_iff]
  simp [Node.hasAttribute, Node.attribute?, SortedMap.contains, Option.isSome_iff_ne_none]

theorem errorless_sources {sources : Sources} {node : Node} :
    Errorless (sources.remarks node) ↔ ∃ key ∈ sources.keys, node.hasAttribute key := by
  rw [← present_ne_nil]
  unfold Sources.remarks
  by_cases h : sources.present node = []
  · simp [h, Diagnostic.isError, Diagnostic.severity]
  · simp [h, errorless_ignored]

theorem ofFlag?_eq_some {flag : String} {condition : Condition} :
    Condition.ofFlag? flag = some condition ↔ condition ≠ .done ∧ flag = condition.name := by
  constructor
  · intro h
    unfold Condition.ofFlag? at h
    split at h <;> cases h <;> exact ⟨by decide, rfl⟩
  · rintro ⟨hdone, rfl⟩
    cases condition with
    | done => exact absurd rfl hdone
    | _ => rfl

theorem errorless_comparison {node : Node} {allowed : List Condition} (h : .done ∉ allowed) :
    Errorless (comparisonRemarks node allowed) ↔
      ∀ flag ∈ node.attribute? "type", flag ∈ allowed.map Condition.name := by
  unfold comparisonRemarks
  cases node.attribute? "type" with
  | none => simp
  | some flag =>
    have hflag : ((Condition.ofFlag? flag).filter (allowed.contains ·)).isSome ↔
        flag ∈ allowed.map Condition.name := by
      rw [Option.isSome_iff_exists, List.mem_map]
      constructor
      · rintro ⟨condition, hc⟩
        rw [Option.filter_eq_some_iff, ofFlag?_eq_some, List.contains_iff_mem] at hc
        exact ⟨condition, hc.2, hc.1.2.symm⟩
      · rintro ⟨condition, hmem, hname⟩
        -- `done` has a name like the others, but no flag asks for it
        have hdone : condition ≠ .done := fun hc => h (hc ▸ hmem)
        refine ⟨condition, Option.filter_eq_some_iff.2 ⟨?_, List.contains_iff_mem.2 hmem⟩⟩
        exact ofFlag?_eq_some.2 ⟨hdone, hname.symm⟩
    change Errorless (if _ then [] else [_]) ↔ _
    by_cases hmem : flag ∈ allowed.map Condition.name
    · rw [if_pos (hflag.2 hmem)]
      simpa using hmem
    · rw [if_neg (mt hflag.1 hmem)]
      simpa [Diagnostic.isError, Diagnostic.severity] using hmem

theorem errorless_set {node : Node} :
    Errorless (setRemarks node) ↔ (needs .set).MetBy node := by
  simp [setRemarks, Needs.MetBy, needs, errorless_absence, errorless_sources, Sources.keys,
    Sources.general]

theorem errorless_parameters {node : Node} :
    Errorless (parameterRemarks node) ↔
      ∀ child ∈ node.children, child.kind = .construct .set ∧ (needs .set).MetBy child := by
  rw [parameterRemarks, errorless_flatMap]
  refine forall₂_congr fun child _ => ?_
  by_cases hset : child.kind = .construct .set
  · rw [if_pos hset, errorless_set]
    exact (and_iff_right hset).symm
  · rw [if_neg hset]
    simp [hset, Diagnostic.isError, Diagnostic.severity]

/-- Clearing a buffer is noted, and no more. -/
theorem errorless_clear (node : Node) : Errorless (clearRemarks node) := by
  unfold clearRemarks
  split
  · simp [Diagnostic.isError, Diagnostic.severity]
  · exact errorless_nil

/-- Nothing about a construct is an error just when it has what it needs. -/
theorem errorless_constructRemarks {c : Construct} {node : Node} :
    Errorless (constructRemarks c node) ↔ Complete c node := by
  have hif : Errorless (comparisonRemarks node ifConditions) ↔
      ∀ flag ∈ node.attribute? "type", flag ∈ ["equal", "less", "greater", "not"] :=
    errorless_comparison (by decide)
  have hassert : Errorless (comparisonRemarks node assertConditions) ↔
      ∀ flag ∈ node.attribute? "type", flag ∈ ["equal", "not"] :=
    errorless_comparison (by decide)
  -- a loop and a set variable are remarked upon alike; all others by what they need
  cases c with
  | whileLoop | set => simp [constructRemarks, Complete, takesParameters, errorless_set, needs]
  | _ =>
    simp [constructRemarks, Complete, takesParameters, Needs.MetBy, needs, errorless_absence,
      errorless_sources, errorless_ignored, errorless_parameters, errorless_clear, hif, hassert,
      Sources.keys, Sources.general, Sources.count, Sources.unreferenced, and_assoc]

/-! ## 4. Codes without errors -/

theorem errorless_remarks {node : Node} {c : Construct} (h : node.kind = .construct c) :
    Errorless (remarks node) ↔ Complete c node := by
  rw [remarks, h]
  exact errorless_constructRemarks

theorem errorless_redefinition {labels : SortedMap Nat} {node : Node} :
    Errorless (redefinition labels node) ↔ ∀ name ∈ labelName? node, labels.get? name = none := by
  unfold redefinition
  cases labelName? node with
  | none => simp
  | some name =>
    cases hname : labels.get? name with
    | none => simp [hname]
    | some first => simp [hname, Diagnostic.isError, Diagnostic.severity]

/-- Nothing about placed nodes is an error just when this holds of each of them, and their labels
have names of their own that were not known before. -/
theorem errorless_remarksAll {labels : SortedMap Nat} {places : List (Nat × Node)} :
    Errorless (remarksAll labels places) ↔
      (∀ place ∈ places, Errorless (remarks place.2)) ∧
        (labelNames (places.map Prod.snd)).Nodup ∧
        ∀ name ∈ labelNames (places.map Prod.snd), labels.get? name = none := by
  induction places generalizing labels with
  | nil => simp [remarksAll, labelNames]
  | cons place places ih =>
    have hnames : labelNames ((place :: places).map Prod.snd) =
        (labelName? place.2).toList ++ labelNames (places.map Prod.snd) := by
      rw [labelNames, List.map_cons, List.filterMap_cons]
      cases labelName? place.2 <;> rfl
    rw [remarksAll, errorless_append, errorless_append, ih, errorless_redefinition, hnames,
      List.forall_mem_cons]
    cases hname : labelName? place.2 with
    | none =>
      simp [defineAt, hname, and_assoc]
    | some name =>
      -- behind the node its own name is known, and no other name has become known
      have hdefine : ∀ other, (defineAt labels place).get? other = none ↔
          labels.get? other = none ∧ other ≠ name := by
        intro other
        have hget : (defineAt labels place).get? other = _ := get?_defineAll labels [place] other
        rw [hget, labelsOf_cons, hname, Option.or_eq_none_iff]
        simp [labelsOf, SortedMap.lookup_cons_eq_ite]
      simp only [hdefine, Option.mem_some, forall_eq', Option.toList_some, List.singleton_append,
        List.nodup_cons, List.forall_mem_cons]
      constructor
      · rintro ⟨⟨hfirst, hfree⟩, hrest, hnodup, hother⟩
        exact ⟨⟨hfirst, hrest⟩, ⟨fun hmem => (hother name hmem).2 rfl, hnodup⟩, hfree,
          fun other hmem => (hother other hmem).1⟩
      · rintro ⟨⟨hfirst, hrest⟩, ⟨hnew, hnodup⟩, hfree, hother⟩
        exact ⟨⟨hfirst, hfree⟩, hrest, hnodup,
          fun other hmem => ⟨hother other hmem, fun heq => hnew (heq ▸ hmem)⟩⟩

theorem errorless_undefined {labels : SortedMap Nat} {fixup : Fixup} :
    Errorless (undefinedRemarks labels fixup) ↔ labels.contains fixup.label := by
  unfold undefinedRemarks
  by_cases h : labels.contains fixup.label
  · simp [h]
  · simp [h, Diagnostic.isError, Diagnostic.severity]

theorem errorless_unused (order : LabelOrder) (labels : SortedMap Nat) (fixups : List Fixup) :
    Errorless (unusedRemarks order labels fixups) := by
  intro entry hentry
  obtain ⟨label, -, rfl⟩ := List.mem_map.1 hentry
  rfl

end TreeScript.Lowering
