import TreeScript.Proofs.Program
import TreeScript.Proofs.Variants

/-!
# Trails

Trails are there for messages. Where an element stands in its document makes no difference to the code
of its node, to the labels and gotos in it, or to whether it has what it needs: all of this can be told
from the node without its trails, its *bare* node.
-/

namespace TreeScript

/-! ## 1. Nodes of elements -/

namespace Node

theorem kind_ofElementAt (trail : Trail) (element : Element) :
    (ofElementAt trail element).kind = Kind.ofTag element.tag := by
  cases element
  rw [ofElementAt]

theorem attributes_ofElementAt (trail : Trail) (element : Element) :
    (ofElementAt trail element).attributes = element.attributes := by
  cases element
  rw [ofElementAt]

theorem children_ofElementAt (trail : Trail) (element : Element) :
    (ofElementAt trail element).children = ofElementsAt trail 0 element.children := by
  cases element
  rw [ofElementAt]

/-- The nodes of elements are nodes of one element each. -/
theorem mem_ofElementsAt {trail : Trail} {index : Nat} {elements : List Element} {node : Node}
    (h : node ∈ ofElementsAt trail index elements) :
    ∃ element ∈ elements, ∃ trail', node = ofElementAt trail' element := by
  induction elements generalizing index with
  | nil =>
    rw [ofElementsAt] at h
    cases h
  | cons element elements ih =>
    rw [ofElementsAt, List.mem_cons] at h
    rcases h with rfl | h
    · exact ⟨element, List.mem_cons_self, _, rfl⟩
    · obtain ⟨other, hother, htrail⟩ := ih h
      exact ⟨other, List.mem_cons_of_mem _ hother, htrail⟩

/-- The nodes of elements behind others are counted on from those. -/
theorem ofElementsAt_append (trail : Trail) (index : Nat) (first second : List Element) :
    ofElementsAt trail index (first ++ second) =
      ofElementsAt trail index first ++ ofElementsAt trail (index + first.length) second := by
  induction first generalizing index with
  | nil => rfl
  | cons element first ih =>
    rw [List.cons_append, ofElementsAt, ofElementsAt, ih, List.length_cons, List.cons_append]
    rw [show index + 1 + first.length = index + (first.length + 1) by omega]

/-! ## 2. Bare nodes -/

mutual

/-- A node without its trail, and without those of the nodes in it. -/
def bare : Node → Node
  | ⟨kind, tag, attributes, children, text, _⟩ =>
    ⟨kind, tag, attributes, bareAll children, text, ⟨"", []⟩⟩

/-- Nodes without their trails. -/
def bareAll : List Node → List Node
  | [] => []
  | node :: nodes => bare node :: bareAll nodes

end

theorem bareAll_eq_map (nodes : List Node) : bareAll nodes = nodes.map bare := by
  induction nodes with
  | nil => rfl
  | cons node nodes ih => rw [bareAll, ih, List.map_cons]

@[simp] theorem kind_bare (node : Node) : node.bare.kind = node.kind := by
  cases node
  rw [bare]

@[simp] theorem attributes_bare (node : Node) : node.bare.attributes = node.attributes := by
  cases node
  rw [bare]

@[simp] theorem text_bare (node : Node) : node.bare.text = node.text := by
  cases node
  rw [bare]

@[simp] theorem children_bare (node : Node) : node.bare.children = bareAll node.children := by
  cases node
  rw [bare]

@[simp] theorem attribute?_bare (node : Node) (key : String) :
    node.bare.attribute? key = node.attribute? key := by
  rw [attribute?, attribute?, attributes_bare]

@[simp] theorem hasAttribute_bare (node : Node) (key : String) :
    node.bare.hasAttribute key = node.hasAttribute key := by
  rw [hasAttribute, hasAttribute, attributes_bare]

mutual

/-- An element has the same bare node wherever it stands. -/
theorem bare_ofElementAt (trail trail' : Trail) :
    ∀ element, (ofElementAt trail element).bare = (ofElementAt trail' element).bare
  | ⟨tag, attributes, children, text⟩ => by
    rw [ofElementAt, ofElementAt, bare, bare, bareAll_ofElementsAt trail trail' 0 0 children]

theorem bareAll_ofElementsAt (trail trail' : Trail) (index index' : Nat) :
    ∀ elements, bareAll (ofElementsAt trail index elements) =
      bareAll (ofElementsAt trail' index' elements)
  | [] => rfl
  | element :: elements => by
    rw [ofElementsAt, ofElementsAt, bareAll, bareAll, bare_ofElementAt _ (trail'.child _ index'),
      bareAll_ofElementsAt trail trail' (index + 1) (index' + 1) elements]

end

end Node

namespace Lowering

open Node (bareAll)

/-! ## 3. Code -/

theorem body_bare (node : Node) : body node.bare = bareAll (body node) := by
  unfold body
  rw [Node.kind_bare, Node.children_bare]
  split
  · split
    · rfl
    · rfl
  · rfl

theorem present_bare (sources : Sources) (node : Node) :
    sources.present node.bare = sources.present node := by
  simp only [Sources.present, Node.attribute?_bare]

theorem instruction_bare (sources : Sources) (node : Node) :
    sources.instruction node.bare = sources.instruction node := by
  rw [Sources.instruction, Sources.first?, present_bare]
  rfl

theorem setCode_bare (node : Node) : setCode node.bare = setCode node := by
  simp only [setCode, instruction_bare, operand, Node.attribute?_bare, Node.hasAttribute_bare]

theorem parameterCode_bare (node : Node) : parameterCode node.bare = parameterCode node := by
  unfold parameterCode
  rw [Node.children_bare]
  induction node.children with
  | nil => rfl
  | cons child children ih =>
    rw [bareAll, List.filter_cons, List.filter_cons, Node.kind_bare]
    split
    · rw [List.flatMap_cons, List.flatMap_cons, ih, setCode_bare]
    · exact ih

theorem bufferCode_bare (node : Node) : bufferCode node.bare = bufferCode node := by
  have happended : appendedTo node.bare = appendedTo node := by
    rw [appendedTo, appendedTo, Sources.first?, present_bare, textOf?, Node.text_bare]
    rfl
  rw [bufferCode, bufferCode, happended, operand, Node.attribute?_bare, Node.hasAttribute_bare]
  rfl

/-- The code of a construct around its body depends on its attributes, its text and its parameters. -/
theorem scheme_bare (c : Construct) (node : Node) (base length : Nat) :
    scheme c node.bare base length = scheme c node base length := by
  cases c <;>
    simp only [scheme, instruction_bare, setCode_bare, bufferCode_bare, callCode, parameterCode_bare,
      comparison, operand, Node.attribute?_bare]

theorem labelName?_bare (node : Node) : labelName? node.bare = labelName? node := by
  rw [labelName?, labelName?, Node.kind_bare, Node.attribute?_bare]

theorem gotoLabel?_bare (node : Node) : gotoLabel? node.bare = gotoLabel? node := by
  rw [gotoLabel?, gotoLabel?, Node.kind_bare, Node.attribute?_bare]

/-- Lowering sees no trails. -/
theorem neutral_bare : Neutral Node.bare where
  kind_eq := Node.kind_bare
  body_eq node := (body_bare node).trans (Node.bareAll_eq_map _)
  scheme_eq node c _ := scheme_bare c node
  labelName_eq := labelName?_bare
  gotoLabel_eq := gotoLabel?_bare

theorem translateAll_bareAll (base : Nat) (nodes : List Node) :
    translateAll base (bareAll nodes) = translateAll base nodes := by
  rw [Node.bareAll_eq_map, neutral_bare.translateAll_map]

theorem reachedAll_bareAll (nodes : List Node) :
    reachedAll (bareAll nodes) = (reachedAll nodes).map Node.bare := by
  rw [Node.bareAll_eq_map, neutral_bare.reachedAll_map]

/-! ## 4. Labels and needs -/

theorem labelNames_bareAll (nodes : List Node) :
    labelNames (reachedAll (bareAll nodes)) = labelNames (reachedAll nodes) := by
  rw [reachedAll_bareAll, labelNames, labelNames, List.filterMap_map]
  congr 1
  funext node
  exact labelName?_bare node

theorem gotoLabels_bareAll (nodes : List Node) :
    gotoLabels (reachedAll (bareAll nodes)) = gotoLabels (reachedAll nodes) := by
  rw [reachedAll_bareAll, gotoLabels, gotoLabels, List.filterMap_map]
  congr 1
  funext node
  exact gotoLabel?_bare node

theorem labelTable_bareAll (nodes : List Node) : labelTable (bareAll nodes) = labelTable nodes := by
  rw [labelTable, labelTable, Node.bareAll_eq_map, neutral_bare.placedAll_map,
    neutral_bare.defineAll_map]

theorem linked_bareAll (nodes : List Node) : linked (bareAll nodes) = linked nodes := by
  rw [linked, linked, unlinked, unlinked, translateAll_bareAll, labelTable_bareAll]

theorem metBy_bare (needs : Needs) (node : Node) : needs.MetBy node.bare ↔ needs.MetBy node := by
  simp only [Needs.MetBy, Node.hasAttribute_bare, Node.attribute?_bare]

theorem complete_bare (c : Construct) (node : Node) : Complete c node.bare ↔ Complete c node := by
  unfold Complete
  rw [metBy_bare, Node.children_bare, Node.bareAll_eq_map, List.forall_mem_map]
  simp only [Node.kind_bare, metBy_bare]

theorem wellFormed_bareAll {nodes : List Node} : WellFormed (bareAll nodes) ↔ WellFormed nodes := by
  have hcomplete : (∀ node ∈ reachedAll (bareAll nodes), ∃ c, node.kind = .construct c ∧
      Complete c node) ↔ ∀ node ∈ reachedAll nodes, ∃ c, node.kind = .construct c ∧
        Complete c node := by
    rw [reachedAll_bareAll, List.forall_mem_map]
    simp only [Node.kind_bare, complete_bare]
  have hnames := labelNames_bareAll nodes
  have hgotos := gotoLabels_bareAll nodes
  constructor
  · intro h
    exact ⟨hcomplete.1 h.complete, hnames ▸ h.distinct, hnames ▸ hgotos ▸ h.resolved⟩
  · intro h
    refine ⟨hcomplete.2 h.complete, hnames.symm ▸ h.distinct, ?_⟩
    rw [hnames, hgotos]
    exact h.resolved

end Lowering

end TreeScript
