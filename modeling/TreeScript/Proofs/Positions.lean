import TreeScript.Proofs.Trails

/-!
# Positions

An element of a tree is found by a *way*: the indices of the children to go through from the root. Two
elements may be equal, but they have different ways, and ways in lexicographic order follow the
document. The trail of a node shows the same way together with the tags.

* `Element.along?` and `Node.along?` follow a way.
* `Element.waysIn` lists the elements of a tree in document order, each with its way.
-/

namespace TreeScript

namespace Element

/-! ## 1. Following a way -/

/-- The element at the end of a way, unless the way leaves the tree. -/
def along? (element : Element) : List Nat → Option Element
  | [] => some element
  | index :: way => element.children[index]?.bind fun child => child.along? way

/-- The tags and indices on a way. -/
def stepsAlong (element : Element) : List Nat → List (String × Nat)
  | [] => []
  | index :: way =>
    element.children[index]?.elim [] fun child => (child.tag, index) :: child.stepsAlong way

/-- The trail to the end of a way from a root. -/
def trailAlong (root : Element) (way : List Nat) : Trail :=
  ⟨root.tag, root.stepsAlong way⟩

theorem along?_cons_eq_some {element found : Element} {index : Nat} {way : List Nat} :
    element.along? (index :: way) = some found ↔
      ∃ child, element.children[index]? = some child ∧ child.along? way = some found :=
  Option.bind_eq_some_iff

/-! ## 2. Elements in document order -/

mutual

/-- An element and all elements in it, each with its way. -/
def waysIn : Element → List (List Nat × Element)
  | ⟨tag, attributes, children, text⟩ =>
    ([], ⟨tag, attributes, children, text⟩) :: waysAmong 0 children

/-- The elements in children from an index on. -/
def waysAmong (index : Nat) : List Element → List (List Nat × Element)
  | [] => []
  | element :: elements =>
    (waysIn element).map (fun found => (index :: found.1, found.2)) ++
      waysAmong (index + 1) elements

end

mutual

/-- The listed elements are those that a way leads to. -/
theorem mem_waysIn : ∀ (element : Element) {way : List Nat} {found : Element},
    (way, found) ∈ element.waysIn ↔ element.along? way = some found
  | ⟨tag, attributes, children, text⟩, way, found => by
    rw [waysIn, List.mem_cons, mem_waysAmong children]
    cases way with
    | nil =>
      simp only [along?, Option.some.injEq, Prod.mk.injEq, true_and]
      constructor
      · rintro (h | ⟨i, rest, child, h, -⟩)
        · exact h.symm
        · cases h
      · intro h
        exact .inl h.symm
    | cons index way =>
      rw [along?_cons_eq_some]
      constructor
      · rintro (h | ⟨i, rest, child, h, hchild, hfound⟩)
        · cases h
        · rw [Nat.zero_add] at h
          cases h
          exact ⟨child, hchild, hfound⟩
      · rintro ⟨child, hchild, hfound⟩
        exact .inr ⟨index, way, child, by rw [Nat.zero_add], hchild, hfound⟩

theorem mem_waysAmong : ∀ (elements : List Element) {index : Nat} {way : List Nat} {found : Element},
    (way, found) ∈ waysAmong index elements ↔
      ∃ i rest child, way = (index + i) :: rest ∧ elements[i]? = some child ∧
        child.along? rest = some found
  | [], index, way, found => by simp [waysAmong]
  | element :: elements, index, way, found => by
    rw [waysAmong, List.mem_append, mem_waysAmong elements, List.mem_map]
    constructor
    · rintro (⟨⟨rest, other⟩, hmem, heq⟩ | ⟨i, rest, child, rfl, hchild, hfound⟩)
      · cases heq
        exact ⟨0, rest, element, rfl, rfl, (mem_waysIn element).1 hmem⟩
      · exact ⟨i + 1, rest, child, by rw [Nat.add_right_comm, Nat.add_assoc], hchild, hfound⟩
    · rintro ⟨i, rest, child, rfl, hchild, hfound⟩
      cases i with
      | zero =>
        cases hchild
        exact .inl ⟨(rest, found), (mem_waysIn _).2 hfound, rfl⟩
      | succ i =>
        exact .inr ⟨i, rest, child, by rw [Nat.add_right_comm, Nat.add_assoc], hchild, hfound⟩

end

mutual

/-- The elements are listed in the order of their ways. -/
theorem waysIn_pairwise : ∀ element : Element, element.waysIn.Pairwise (fun a b => a.1 < b.1)
  | ⟨tag, attributes, children, text⟩ => by
    rw [waysIn]
    apply List.pairwise_cons.2
    refine ⟨fun found hfound => ?_, waysAmong_pairwise 0 children⟩
    obtain ⟨i, rest, -, hway, -⟩ := (mem_waysAmong children).1 hfound
    rw [hway]
    exact List.nil_lt_cons _ _

theorem waysAmong_pairwise (index : Nat) : ∀ elements : List Element,
    (waysAmong index elements).Pairwise (fun a b => a.1 < b.1)
  | [] => .nil
  | element :: elements => by
    rw [waysAmong]
    apply List.pairwise_append.2
    refine ⟨?_, waysAmong_pairwise (index + 1) elements, fun first hfirst second hsecond => ?_⟩
    · rw [List.pairwise_map]
      apply (waysIn_pairwise element).imp
      intro a b hlt
      exact List.cons_lt_cons_iff.2 (.inr ⟨rfl, hlt⟩)
    · -- the ways behind begin with a later index
      obtain ⟨found, -, rfl⟩ := List.mem_map.1 hfirst
      obtain ⟨i, rest, -, hway, -⟩ := (mem_waysAmong elements).1 hsecond
      rw [hway]
      exact List.cons_lt_cons_iff.2 (.inl (by omega))

end

end Element

/-! ## 3. Nodes -/

namespace Trail

/-- The trail with more steps. -/
def extend (trail : Trail) (steps : List (String × Nat)) : Trail :=
  { trail with steps := trail.steps ++ steps }

theorem extend_nil (trail : Trail) : trail.extend [] = trail := by
  rw [extend, List.append_nil]

theorem child_extend (trail : Trail) (tag : String) (index : Nat) (steps : List (String × Nat)) :
    (trail.child tag index).extend steps = trail.extend ((tag, index) :: steps) := by
  simp only [extend, child, List.append_assoc, List.singleton_append]

end Trail

namespace Node

/-- The node at the end of a way, unless the way leaves the tree. -/
def along? (node : Node) : List Nat → Option Node
  | [] => some node
  | index :: way => node.children[index]?.bind fun child => child.along? way

theorem getElem?_ofElementsAt (trail : Trail) (index : Nat) (elements : List Element) (i : Nat) :
    (ofElementsAt trail index elements)[i]? =
      elements[i]?.map fun child => ofElementAt (trail.child child.tag (index + i)) child := by
  induction elements generalizing index i with
  | nil => rfl
  | cons element elements ih =>
    rw [ofElementsAt]
    cases i with
    | zero => rfl
    | succ i =>
      rw [List.getElem?_cons_succ, ih, List.getElem?_cons_succ, Nat.add_right_comm, Nat.add_assoc]

theorem length_ofElementsAt (trail : Trail) (index : Nat) (elements : List Element) :
    (ofElementsAt trail index elements).length = elements.length := by
  induction elements generalizing index with
  | nil => rfl
  | cons element elements ih => rw [ofElementsAt, List.length_cons, ih, List.length_cons]

/-- The node at the end of a way is the node of the element there, with the steps of the way. -/
theorem along?_ofElementAt (trail : Trail) (element : Element) (way : List Nat) :
    (ofElementAt trail element).along? way =
      (element.along? way).map (ofElementAt (trail.extend (element.stepsAlong way))) := by
  induction way generalizing trail element with
  | nil => rw [along?, Element.along?, Element.stepsAlong, Option.map_some, Trail.extend_nil]
  | cons index way ih =>
    rw [along?, Element.along?, Element.stepsAlong]
    rw [children_ofElementAt, getElem?_ofElementsAt, Nat.zero_add]
    cases element.children[index]? with
    | none => rfl
    | some child =>
      show (ofElementAt (trail.child child.tag index) child).along? way = _
      rw [ih, Trail.child_extend]
      rfl

end Node

end TreeScript
