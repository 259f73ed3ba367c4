import TreeScript.Proofs.Lowering

/-!
# Variants of nodes

The code of a node is made from its kind, its own instructions and the nodes of its body. A change
that keeps these in every node may do to the rest of a tree what it likes: the code of the tree, the
places of its nodes, its labels and its gotos stay the same.
-/

namespace TreeScript.Lowering

/-- A change of nodes that lowering does not see, what it reports apart. -/
structure Neutral (f : Node → Node) : Prop where
  kind_eq : ∀ node, (f node).kind = node.kind
  body_eq : ∀ node, body (f node) = (body node).map f
  scheme_eq : ∀ node c, node.kind = .construct c → ∀ base length,
    scheme c (f node) base length = scheme c node base length
  labelName_eq : ∀ node, labelName? (f node) = labelName? node
  gotoLabel_eq : ∀ node, gotoLabel? (f node) = gotoLabel? node

namespace Neutral

variable {f : Node → Node} (h : Neutral f)
include h

/-! ## 1. Code and places -/

theorem isConstruct_eq (node : Node) : isConstruct (f node) = isConstruct node := by
  rw [isConstruct, isConstruct, h.kind_eq]

section Schemes

variable {node : Node} {c : Construct} (hkind : node.kind = .construct c)
include hkind

theorem openingSize_eq : openingSize c (f node) = openingSize c node := by
  rw [openingSize, openingSize, h.scheme_eq node c hkind]

theorem closingSize_eq : closingSize c (f node) = closingSize c node := by
  rw [closingSize, closingSize, h.scheme_eq node c hkind]

end Schemes

private theorem size_aux :
    (∀ node, size (f node) = size node) ∧ ∀ nodes, sizeAll (nodes.map f) = sizeAll nodes := by
  refine walk_induction ?_ ?_ ?_ ?_
  · intro node hforeign
    rw [size_foreign hforeign, size_foreign ((h.isConstruct_eq node).trans hforeign)]
  · intro node c hkind ih
    rw [size_construct hkind, size_construct ((h.kind_eq node).trans hkind), h.body_eq, ih,
      h.openingSize_eq hkind, h.closingSize_eq hkind]
  · rfl
  · intro node nodes hnode hnodes
    rw [List.map_cons, sizeAll, sizeAll, hnode, hnodes]

theorem size_eq (node : Node) : size (f node) = size node :=
  h.size_aux.1 node

theorem sizeAll_map (nodes : List Node) : sizeAll (nodes.map f) = sizeAll nodes :=
  h.size_aux.2 nodes

private theorem translate_aux :
    (∀ node base, translate base (f node) = translate base node) ∧
      ∀ nodes base, translateAll base (nodes.map f) = translateAll base nodes := by
  refine walk_induction ?_ ?_ ?_ ?_
  · intro node hforeign base
    rw [translate_foreign hforeign, translate_foreign ((h.isConstruct_eq node).trans hforeign)]
  · intro node c hkind ih base
    rw [translate_construct hkind, translate_construct ((h.kind_eq node).trans hkind), h.body_eq, ih,
      h.sizeAll_map, h.scheme_eq node c hkind, h.openingSize_eq hkind]
  · intro base
    rfl
  · intro node nodes hnode hnodes base
    rw [List.map_cons, translateAll, translateAll, h.size_eq, hnode, hnodes]

theorem translate_eq (base : Nat) (node : Node) : translate base (f node) = translate base node :=
  h.translate_aux.1 node base

theorem translateAll_map (base : Nat) (nodes : List Node) :
    translateAll base (nodes.map f) = translateAll base nodes :=
  h.translate_aux.2 nodes base

private theorem placed_aux :
    (∀ node base, placed base (f node) = (placed base node).map (Prod.map id f)) ∧
      ∀ nodes base, placedAll base (nodes.map f) = (placedAll base nodes).map (Prod.map id f) := by
  refine walk_induction ?_ ?_ ?_ ?_
  · intro node hforeign base
    rw [placed_foreign hforeign, placed_foreign ((h.isConstruct_eq node).trans hforeign)]
    rfl
  · intro node c hkind ih base
    rw [placed_construct hkind, placed_construct ((h.kind_eq node).trans hkind), h.body_eq, ih,
      h.openingSize_eq hkind]
    rfl
  · intro base
    rfl
  · intro node nodes hnode hnodes base
    rw [List.map_cons, placedAll, placedAll, List.map_append, h.size_eq, hnode, hnodes]

/-- The variants of nodes are reached at the same places. -/
theorem placed_eq (base : Nat) (node : Node) :
    placed base (f node) = (placed base node).map (Prod.map id f) :=
  h.placed_aux.1 node base

theorem placedAll_map (base : Nat) (nodes : List Node) :
    placedAll base (nodes.map f) = (placedAll base nodes).map (Prod.map id f) :=
  h.placed_aux.2 nodes base

theorem reached_eq (node : Node) : reached (f node) = (reached node).map f := by
  rw [← placed_map_snd 0, ← placed_map_snd 0, h.placed_eq, List.map_map, List.map_map]
  rfl

theorem reachedAll_map (nodes : List Node) : reachedAll (nodes.map f) = (reachedAll nodes).map f := by
  rw [← placedAll_map_snd 0, ← placedAll_map_snd 0, h.placedAll_map, List.map_map, List.map_map]
  rfl

/-! ## 2. Labels and gotos -/

theorem defineAll_map (labels : SortedMap Nat) (places : List (Nat × Node)) :
    defineAll labels (places.map (Prod.map id f)) = defineAll labels places := by
  rw [defineAll, defineAll, List.foldl_map]
  congr 1
  funext labels place
  rw [defineAt, defineAt, Prod.map_snd, Prod.map_fst, h.labelName_eq]
  rfl

theorem awaited_map (places : List (Nat × Node)) :
    awaited (places.map (Prod.map id f)) = awaited places := by
  rw [awaited, awaited, List.filterMap_map]
  congr 1
  funext place
  rw [Function.comp_apply, Prod.map_snd, Prod.map_fst, h.gotoLabel_eq]
  rfl

/-! ## 3. Where lowering stops -/

theorem passes_map (nodes : List Node) : passes (nodes.map f) = passes nodes := by
  rw [passes, passes, List.all_map]
  congr 1
  funext node
  exact h.isConstruct_eq node

theorem visited_map (places : List (Nat × Node)) :
    visited (places.map (Prod.map id f)) = (visited places).map (Prod.map id f) := by
  rw [visited, visited, List.takeWhile_map]
  congr 2
  funext place
  exact h.isConstruct_eq place.2

private theorem emitted_aux :
    (∀ node base, emitted base (f node) = emitted base node) ∧
      ∀ nodes base, emittedAll base (nodes.map f) = emittedAll base nodes := by
  have hpasses : ∀ node, passes (reached (f node)) = passes (reached node) := by
    intro node
    rw [h.reached_eq, h.passes_map]
  refine walk_induction ?_ ?_ ?_ ?_
  · intro node hforeign base
    rw [emitted_foreign hforeign, emitted_foreign ((h.isConstruct_eq node).trans hforeign)]
  · intro node c hkind ih base
    have hkind' := (h.kind_eq node).trans hkind
    cases hnode : passes (reached node) with
    | true =>
      rw [emitted_of_passes hnode, emitted_of_passes ((hpasses node).trans hnode), h.translate_eq]
    | false =>
      have hstops := (hpasses node).trans hnode
      have hdescends := (descends_of_not_passes hkind hnode).1
      have hchildren : (f node).children = node.children.map f := by
        rw [← body_of_descends hkind hdescends, ← body_of_descends hkind' hdescends, h.body_eq]
      rw [body_of_descends hkind hdescends] at ih
      rw [emitted_of_not_passes hkind hnode, emitted_of_not_passes hkind' hstops, hchildren, ih,
        h.scheme_eq node c hkind, h.openingSize_eq hkind]
  · intro base
    rfl
  · intro node nodes hnode hnodes base
    rw [List.map_cons, emittedAll, emittedAll, hpasses, h.size_eq, hnode, hnodes]

theorem emitted_eq (base : Nat) (node : Node) : emitted base (f node) = emitted base node :=
  h.emitted_aux.1 node base

/-- What comes of the variant of a node that keeps tags and trails: the result and the code are those
of the node, and what is noted is noted about the variants of the nodes visited. -/
theorem lower_run (htag : ∀ node, (f node).tag = node.tag)
    (htrail : ∀ node, (f node).trail = node.trail) (node : Node) (s : State) :
    (lower (f node)).run s =
      (outcome (reached node),
        s.advance ((visited (placed s.code.size node)).map (Prod.map id f))
          (emitted s.code.size node)) := by
  have houtcome : outcome ((reached node).map f) = outcome (reached node) := by
    have hforeign : foreign? ((reached node).map f) = (foreign? (reached node)).map f := by
      rw [foreign?, foreign?, List.find?_map]
      congr 2
      funext node
      exact congrArg not (h.isConstruct_eq node)
    rw [outcome, outcome, hforeign]
    cases foreign? (reached node) with
    | none => rfl
    | some stop => simp only [Option.map_some, htag, htrail]
  rw [lower_ends (f node) s, h.reached_eq, houtcome]
  simp only [h.placed_eq, h.visited_map, h.emitted_eq]

end Neutral

end TreeScript.Lowering
