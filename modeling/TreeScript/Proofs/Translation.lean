import TreeScript.Lowering.Construct

/-!
# Translation without patches

What lowering makes of a node can be written down at once when the size of its body is known
beforehand: every conditional jump and every assertion gets its final target, and every jump the
top of its loop. Only a goto stays pending, since its label may stand anywhere.

* `scheme` is the code of one construct around its body.
* `size` counts the instructions of a node, `translate` lists them from an address on.
* `placed` lists the nodes that lowering reaches, in document order, each with the number of
  instructions before its own.
-/

namespace TreeScript.Lowering

/-! ## 1. Operands -/

/-- The operand that an attribute names; without the attribute, the empty text. -/
def operand (node : Node) (key : String) : String :=
  (node.attribute? key).getD ""

/-- The instruction of the source with the highest precedence among those that a node has. -/
def Sources.first? (sources : Sources) (node : Node) : Option Instruction :=
  (sources.present node).head?.map Prod.snd

/-- The instruction for the value of a node, or its stand-in. -/
def Sources.instruction (sources : Sources) (node : Node) : Instruction :=
  (sources.first? node).getD placeholder

/-- The condition that a node asks for, if it is an allowed one; otherwise equality. -/
def comparison (node : Node) (allowed : List Condition) : Condition :=
  match node.attribute? "type" with
  | none => .equal
  | some flag => ((Condition.ofFlag? flag).filter (allowed.contains ·)).getD .equal

/-- The comparisons of an `if`. -/
def ifConditions : List Condition := [.equal, .less, .greater, .not]

/-- The comparisons of an assertion. -/
def assertConditions : List Condition := [.equal, .not]

/-! ## 2. Code without a body -/

/-- The code of a variable being set. -/
def setCode (node : Node) : List Instruction :=
  [Sources.general.instruction node,
    if node.hasAttribute "new" then .declareNew (operand node "name")
    else .store (operand node "name")]

/-- What a node appends to its buffer: its value, then its text. -/
def appendedTo (node : Node) : List Instruction :=
  (Sources.unreferenced.first? node).toList ++ (textOf? node).toList.map .loadLiteral

/-- The code of a buffer. -/
def bufferCode (node : Node) : List Instruction :=
  (if node.hasAttribute "clear" then [.clearBuffer (operand node "name")] else []) ++
    (appendedTo node).flatMap (fun instruction => [instruction, .merge (operand node "name")]) ++
    if !node.hasAttribute "clear" && (appendedTo node).isEmpty then
      [.clearBuffer (operand node "name")]
    else []

/-- The code of the parameters of a call. -/
def parameterCode (node : Node) : List Instruction :=
  (node.children.filter fun child => child.kind = .construct .set).flatMap setCode

/-- A call between entering and leaving its scope, and the store of its result. -/
def callCode (node : Node) (dispatch : List Instruction) : List Instruction :=
  .scopeEnter :: parameterCode node ++ dispatch ++ .scopeExit ::
    (node.attribute? "result").toList.map .store

/-! ## 3. Schemes -/

/-- Whether lowering goes on to the children of a construct. -/
def descends : Construct → Bool
  | .block | .forLoop | .ifThen | .assertion | .whileLoop => true
  | _ => false

/-- The code of a construct before and behind its body. -/
structure Scheme where
  opening : List Instruction
  closing : List Instruction := []

/-- The scheme of a construct whose code starts at `base` and whose body has `length`
instructions. -/
def scheme (construct : Construct) (node : Node) (base length : Nat) : Scheme :=
  match construct with
  | .block => ⟨[.scopeEnter], [.scopeExit]⟩
  | .ifThen =>
    ⟨[Sources.general.instruction node, .moveRight, .fetch (operand node "item"), .arith "-",
        .condJump (comparison node ifConditions) (some (base + length + 7)), .scopeEnter],
      [.scopeExit, .nop]⟩
  | .whileLoop =>
    ⟨[Sources.general.instruction node, .moveRight, .fetch (operand node "name"), .arith "==",
        .condJump .equal (some (base + length + 8)), .scopeEnter],
      [.scopeExit, .jump base]⟩
  | .forLoop =>
    ⟨[Sources.count.instruction node, .declareNew (operand node "name"),
        .condJump .done (some (base + length + 11)), .scopeEnter],
      [.scopeExit, .loadLiteral "1", .moveRight, .fetch (operand node "name"), .arith "-",
        .store (operand node "name"), .jump (base + 2)]⟩
  | .assertion =>
    ⟨[.fetch (operand node "item"),
        .assert (comparison node assertConditions) (some (base + length + 4)), .scopeEnter],
      [.scopeExit, .nop]⟩
  | .set => ⟨setCode node, []⟩
  | .input =>
    ⟨[Sources.unreferenced.instruction node, .declareNew (operand node "name")], []⟩
  | .buffer => ⟨bufferCode node, []⟩
  | .math =>
    ⟨[Sources.general.instruction node, .moveRight, .fetch (operand node "left"),
        .arith (operand node "oper"),
        .store ((node.attribute? "output").getD (operand node "left"))], []⟩
  | .goto => ⟨[.goto (operand node "label") none], []⟩
  | .label => ⟨[], []⟩
  | .call => ⟨callCode node [.call (operand node "name")], []⟩
  | .exec => ⟨callCode node [.exec (operand node "name")], []⟩
  | .subroutine => ⟨callCode node [.subroutine (operand node "name")], []⟩
  | .memberCall =>
    ⟨callCode node [.eval (operand node "name"), .memberCall (operand node "method")], []⟩
  | .ret => ⟨[.fault], []⟩

/-- The number of instructions before the body of a construct. -/
def openingSize (construct : Construct) (node : Node) : Nat :=
  (scheme construct node 0 0).opening.length

/-- The number of instructions behind the body of a construct. -/
def closingSize (construct : Construct) (node : Node) : Nat :=
  (scheme construct node 0 0).closing.length

-- targets are operands, so the place of a construct does not change how long its code is
theorem length_opening (c : Construct) (node : Node) (base length : Nat) :
    (scheme c node base length).opening.length = openingSize c node := by
  cases c <;> rfl

theorem length_closing (c : Construct) (node : Node) (base length : Nat) :
    (scheme c node base length).closing.length = closingSize c node := by
  cases c <;> rfl

/-! ## 4. Trees -/

mutual

/-- The number of instructions of a node. -/
def size : Node → Nat
  | ⟨.construct c, tag, attributes, children, text, trail⟩ =>
    let node : Node := ⟨.construct c, tag, attributes, children, text, trail⟩
    openingSize c node + (if descends c then sizeAll children else 0) + closingSize c node
  | _ => 0

/-- The number of instructions of nodes in a row. -/
def sizeAll : List Node → Nat
  | [] => 0
  | node :: nodes => size node + sizeAll nodes

end

mutual

/-- The instructions of a node from an address on. -/
def translate (base : Nat) : Node → List Instruction
  | ⟨.construct c, tag, attributes, children, text, trail⟩ =>
    let node : Node := ⟨.construct c, tag, attributes, children, text, trail⟩
    let length := if descends c then sizeAll children else 0
    let body := if descends c then translateAll (base + openingSize c node) children else []
    (scheme c node base length).opening ++ body ++ (scheme c node base length).closing
  | _ => []

/-- The instructions of nodes in a row from an address on. -/
def translateAll (base : Nat) : List Node → List Instruction
  | [] => []
  | node :: nodes => translate base node ++ translateAll (base + size node) nodes

end

mutual

/-- The nodes that lowering reaches from a node, in document order. -/
def reached : Node → List Node
  | ⟨.construct c, tag, attributes, children, text, trail⟩ =>
    ⟨.construct c, tag, attributes, children, text, trail⟩ ::
      if descends c then reachedAll children else []
  | node => [node]

/-- The nodes that lowering reaches from nodes in a row. -/
def reachedAll : List Node → List Node
  | [] => []
  | node :: nodes => reached node ++ reachedAll nodes

end

mutual

/-- The nodes that lowering reaches, each with the number of instructions before its own. -/
def placed (base : Nat) : Node → List (Nat × Node)
  | ⟨.construct c, tag, attributes, children, text, trail⟩ =>
    let node : Node := ⟨.construct c, tag, attributes, children, text, trail⟩
    (base, node) ::
      if descends c then placedAll (base + openingSize c node) children else []
  | node => [(base, node)]

/-- The nodes that lowering reaches from nodes in a row, with their places. -/
def placedAll (base : Nat) : List Node → List (Nat × Node)
  | [] => []
  | node :: nodes => placed base node ++ placedAll (base + size node) nodes

end

/-! ## 5. Induction along the walk -/

/-- The nodes that lowering goes on to from a node. -/
def body (node : Node) : List Node :=
  match node.kind with
  | .construct c => if descends c then node.children else []
  | _ => []

/-- Whether a node is a construct. -/
def isConstruct (node : Node) : Bool :=
  match node.kind with
  | .construct _ => true
  | _ => false

theorem isConstruct_iff {node : Node} : isConstruct node ↔ ∃ c, node.kind = .construct c := by
  unfold isConstruct
  split
  · rename_i c hkind
    exact ⟨fun _ => ⟨c, hkind⟩, fun _ => rfl⟩
  · rename_i hkind
    exact ⟨fun h => absurd h Bool.false_ne_true, fun ⟨c, hc⟩ => absurd hc (hkind c)⟩

section Equations

variable {node : Node} {c : Construct}

theorem size_construct (h : node.kind = .construct c) :
    size node = openingSize c node + sizeAll (body node) + closingSize c node := by
  obtain ⟨kind, tag, attributes, children, text, trail⟩ := node
  subst h
  simp only [size, body]
  split <;> rfl

theorem translate_construct (h : node.kind = .construct c) (base : Nat) :
    translate base node =
      (scheme c node base (sizeAll (body node))).opening ++
        translateAll (base + openingSize c node) (body node) ++
        (scheme c node base (sizeAll (body node))).closing := by
  obtain ⟨kind, tag, attributes, children, text, trail⟩ := node
  subst h
  simp only [translate, body]
  split <;> rfl

theorem reached_construct (h : node.kind = .construct c) :
    reached node = node :: reachedAll (body node) := by
  obtain ⟨kind, tag, attributes, children, text, trail⟩ := node
  subst h
  simp only [reached, body]
  split <;> rfl

theorem placed_construct (h : node.kind = .construct c) (base : Nat) :
    placed base node = (base, node) :: placedAll (base + openingSize c node) (body node) := by
  obtain ⟨kind, tag, attributes, children, text, trail⟩ := node
  subst h
  simp only [placed, body]
  split <;> rfl

end Equations

section Foreign

variable {node : Node} (h : isConstruct node = false)
include h

theorem size_foreign : size node = 0 := by
  obtain ⟨_ | _ | _, tag, attributes, children, text, trail⟩ := node
  · cases h
  · rfl
  · rfl

theorem translate_foreign (base : Nat) : translate base node = [] := by
  obtain ⟨_ | _ | _, tag, attributes, children, text, trail⟩ := node
  · cases h
  · rfl
  · rfl

theorem reached_foreign : reached node = [node] := by
  obtain ⟨_ | _ | _, tag, attributes, children, text, trail⟩ := node
  · cases h
  · rfl
  · rfl

theorem placed_foreign (base : Nat) : placed base node = [(base, node)] := by
  obtain ⟨_ | _ | _, tag, attributes, children, text, trail⟩ := node
  · cases h
  · rfl
  · rfl

end Foreign

-- what holds of all children of a node holds of those that the walk goes on to
private theorem walk_body {all : List Node → Prop} (nil : all []) (node : Node)
    (h : all node.children) : all (body node) := by
  unfold body
  split
  · split
    · exact h
    · exact nil
  · exact nil

/-- Induction along the walk of lowering: a construct is looked at after the nodes of its body. -/
theorem walk_induction {one : Node → Prop} {all : List Node → Prop}
    (foreign : ∀ node, isConstruct node = false → one node)
    (construct : ∀ node c, node.kind = .construct c → all (body node) → one node)
    (nil : all []) (cons : ∀ node nodes, one node → all nodes → all (node :: nodes)) :
    (∀ node, one node) ∧ ∀ nodes, all nodes := by
  have hone : ∀ node, one node := by
    -- the recursor gives the hypothesis for all children, also for those that are not walked
    refine @Node.rec one all (fun kind tag attributes children text trail hall => ?_) nil cons
    cases kind with
    | construct c => exact construct _ c rfl (walk_body nil ⟨_, _, _, children, _, _⟩ hall)
    | part p => exact foreign _ rfl
    | foreign name => exact foreign _ rfl
  refine ⟨hone, fun nodes => ?_⟩
  induction nodes with
  | nil => exact nil
  | cons node nodes ih => exact cons node nodes (hone node) ih

/-! ## 6. Sizes and places -/

private theorem length_translate_aux :
    (∀ node base, (translate base node).length = size node) ∧
      ∀ nodes base, (translateAll base nodes).length = sizeAll nodes := by
  refine walk_induction ?_ ?_ ?_ ?_
  · intro node hforeign base
    rw [translate_foreign hforeign, size_foreign hforeign, List.length_nil]
  · intro node c hkind ih base
    rw [translate_construct hkind, size_construct hkind, List.length_append, List.length_append,
      length_opening, length_closing, ih]
  · intro base
    rfl
  · intro node nodes hnode hnodes base
    rw [translateAll, sizeAll, List.length_append, hnode, hnodes]

/-- The code of a node has as many instructions as the node, wherever it stands. -/
theorem length_translate (base : Nat) (node : Node) : (translate base node).length = size node :=
  length_translate_aux.1 node base

theorem length_translateAll (base : Nat) (nodes : List Node) :
    (translateAll base nodes).length = sizeAll nodes :=
  length_translate_aux.2 nodes base

private theorem placed_reached_aux :
    (∀ node base, (placed base node).map Prod.snd = reached node) ∧
      ∀ nodes base, (placedAll base nodes).map Prod.snd = reachedAll nodes := by
  refine walk_induction ?_ ?_ ?_ ?_
  · intro node hforeign base
    rw [placed_foreign hforeign, reached_foreign hforeign]
    rfl
  · intro node c hkind ih base
    rw [placed_construct hkind, reached_construct hkind, List.map_cons, ih]
  · intro base
    rfl
  · intro node nodes hnode hnodes base
    rw [placedAll, reachedAll, List.map_append, hnode, hnodes]

/-- Without their places, the placed nodes are the reached ones. -/
theorem placed_map_snd (base : Nat) (node : Node) :
    (placed base node).map Prod.snd = reached node :=
  placed_reached_aux.1 node base

theorem placedAll_map_snd (base : Nat) (nodes : List Node) :
    (placedAll base nodes).map Prod.snd = reachedAll nodes :=
  placed_reached_aux.2 nodes base

private theorem placed_le_aux :
    (∀ node base, ∀ place ∈ placed base node, place.1 ≤ base + size node) ∧
      ∀ nodes base, ∀ place ∈ placedAll base nodes, place.1 ≤ base + sizeAll nodes := by
  refine walk_induction ?_ ?_ ?_ ?_
  · intro node hforeign base place hplace
    rw [placed_foreign hforeign, List.mem_singleton] at hplace
    subst hplace
    exact Nat.le_add_right _ _
  · intro node c hkind ih base place hplace
    rw [placed_construct hkind, List.mem_cons] at hplace
    rw [size_construct hkind]
    rcases hplace with rfl | hplace
    · exact Nat.le_add_right _ _
    · -- the body starts behind the opening and ends before the closing
      have hbody := ih _ place hplace
      omega
  · intro base place hplace
    cases hplace
  · intro node nodes hnode hnodes base place hplace
    rw [placedAll, List.mem_append] at hplace
    rw [sizeAll]
    rcases hplace with hplace | hplace
    · have hfirst := hnode _ place hplace
      omega
    · have hrest := hnodes _ place hplace
      omega

/-- No node is placed behind the end of the code. -/
theorem placedAll_le {base : Nat} {nodes : List Node} {place : Nat × Node}
    (h : place ∈ placedAll base nodes) : place.1 ≤ base + sizeAll nodes :=
  placed_le_aux.2 nodes base place h

/-! ## 7. Nodes that are reached -/

theorem mem_children_of_mem_body {node child : Node} (h : child ∈ body node) :
    child ∈ node.children := by
  unfold body at h
  split at h
  next =>
    split at h
    next => exact h
    next => cases h
  next => cases h

theorem mem_reached_self (node : Node) : node ∈ reached node := by
  cases hconstruct : isConstruct node with
  | true =>
    obtain ⟨c, hkind⟩ := isConstruct_iff.1 hconstruct
    rw [reached_construct hkind]
    exact List.mem_cons_self
  | false =>
    rw [reached_foreign hconstruct]
    exact List.mem_cons_self

theorem mem_reachedAll_of_mem {nodes : List Node} {node : Node} (h : node ∈ nodes) :
    node ∈ reachedAll nodes := by
  induction nodes with
  | nil => cases h
  | cons first nodes ih =>
    rw [reachedAll, List.mem_append]
    rcases List.mem_cons.1 h with rfl | h
    · exact .inl (mem_reached_self node)
    · exact .inr (ih h)

private theorem reached_body_aux :
    (∀ node, ∀ m ∈ reached node, ∀ child ∈ body m, child ∈ reached node) ∧
      ∀ nodes, ∀ m ∈ reachedAll nodes, ∀ child ∈ body m, child ∈ reachedAll nodes := by
  refine walk_induction ?_ ?_ ?_ ?_
  · intro node hforeign m hm child hchild
    rw [reached_foreign hforeign, List.mem_singleton] at hm
    subst hm
    unfold body at hchild
    split at hchild
    next hkind =>
      rw [isConstruct_iff.2 ⟨_, hkind⟩] at hforeign
      cases hforeign
    next => cases hchild
  · intro node c hkind ih m hm child hchild
    rw [reached_construct hkind, List.mem_cons] at hm ⊢
    rcases hm with rfl | hm
    · exact .inr (mem_reachedAll_of_mem hchild)
    · exact .inr (ih m hm child hchild)
  · intro m hm
    cases hm
  · intro node nodes hnode hnodes m hm child hchild
    rw [reachedAll, List.mem_append] at hm ⊢
    exact hm.imp (hnode m · child hchild) (hnodes m · child hchild)

/-- Lowering reaches the body of every construct that it reaches. -/
theorem body_reached {nodes : List Node} {node child : Node} (h : node ∈ reachedAll nodes)
    (hchild : child ∈ body node) : child ∈ reachedAll nodes :=
  reached_body_aux.2 nodes node h child hchild

end TreeScript.Lowering
