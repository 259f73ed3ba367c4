import TreeScript.Proofs.Variants
import TreeScript.Proofs.WellFormed

/-!
# Sources of lower precedence

A node may have several attributes that could give it its value. The first of them by precedence does,
and the others are ignored with a warning. Which attributes compete depends on the construct: what is a
source of one construct is no source of another one and is not looked at there.

* `reduce` takes the ignored sources away, from the nodes that lowering reaches and from the parameters
  of their calls.
* `warnings` is what is said about a node with more than one source, and `choosers` lists the nodes whose
  values are chosen when a node is lowered.
-/

namespace TreeScript

/-- Whether an entry says that sources of lower precedence are ignored. -/
def Diagnostic.isSourcesIgnored : Diagnostic → Bool
  | .sourcesIgnored .. => true
  | _ => false

theorem Diagnostic.isSourcesIgnored_of_isError {entry : Diagnostic} (h : entry.isError) :
    entry.isSourcesIgnored = false := by
  unfold isSourcesIgnored
  split
  next => exact absurd h Bool.false_ne_true
  next => rfl

namespace SortedMap

variable {α : Type}

/-- The entries of a map whose keys are not among those given. -/
def without (m : SortedMap α) (keys : List String) : SortedMap α :=
  ⟨m.entries.filter (·.1 ∉ keys), m.sorted.filter _⟩

theorem get?_without (m : SortedMap α) (keys : List String) (key : String) :
    (m.without keys).get? key = if key ∈ keys then none else m.get? key := by
  obtain ⟨entries, hsorted⟩ := m
  change (entries.filter (·.1 ∉ keys)).lookup key = if key ∈ keys then none else entries.lookup key
  clear hsorted
  induction entries with
  | nil => exact (ite_self none).symm
  | cons entry entries ih =>
    rw [List.filter_cons, lookup_cons_eq_ite]
    by_cases hdropped : entry.1 ∈ keys
    · simp only [hdropped, not_true, decide_false, Bool.false_eq_true, if_false, ih]
      by_cases hkey : key = entry.1
      · rw [hkey, if_pos hdropped, if_pos hdropped]
      · rw [if_neg hkey]
    · simp only [hdropped, not_false_iff, decide_true, if_true, lookup_cons_eq_ite, ih]
      by_cases hkey : key = entry.1
      · rw [if_pos hkey, if_pos hkey, hkey, if_neg hdropped]
      · rw [if_neg hkey, if_neg hkey]

end SortedMap

namespace Lowering

/-! ## 1. Reduced nodes -/

/-- The attributes that may give a construct its value, by precedence. -/
def precedence : Construct → List String
  | .ifThen | .whileLoop | .set | .math => ["eval", "value", "ref", "buffer"]
  | .forLoop => ["eval", "count", "ref", "buffer"]
  | .input | .buffer => ["eval", "value", "buffer"]
  | _ => []

/-- The attributes of a node that compete for its value, by precedence. -/
def rivals (node : Node) : List String :=
  match node.kind with
  | .construct c => (precedence c).filter (node.hasAttribute ·)
  | _ => []

/-- A node without the sources that are ignored. -/
def settle (node : Node) : Node :=
  { node with attributes := node.attributes.without (rivals node).tail }

/-- A child of a call without the sources that are ignored; what is no parameter stays as it is. -/
def settleParameter (child : Node) : Node :=
  if child.kind = .construct .set then settle child else child

mutual

/-- A node without the sources that are ignored when it is lowered, in the nodes of its body and in
parameters too. -/
def reduce : Node → Node
  | ⟨.construct c, tag, attributes, children, text, trail⟩ =>
    let node : Node := ⟨.construct c, tag, attributes, children, text, trail⟩
    { settle node with
      children :=
        if descends c then reduceAll children
        else if takesParameters c then children.map settleParameter
        else children }
  | node => node

/-- Nodes without the sources that are ignored. -/
def reduceAll : List Node → List Node
  | [] => []
  | node :: nodes => reduce node :: reduceAll nodes

end

theorem reduceAll_eq_map (nodes : List Node) : reduceAll nodes = nodes.map reduce := by
  induction nodes with
  | nil => rfl
  | cons node nodes ih => rw [reduceAll, ih, List.map_cons]

theorem reduce_construct {node : Node} {c : Construct} (hkind : node.kind = .construct c) :
    reduce node =
      { settle node with
        children :=
          if descends c then node.children.map reduce
          else if takesParameters c then node.children.map settleParameter
          else node.children } := by
  obtain ⟨kind, tag, attributes, children, text, trail⟩ := node
  subst hkind
  rw [reduce, reduceAll_eq_map]

theorem reduce_foreign {node : Node} (hforeign : isConstruct node = false) : reduce node = node := by
  obtain ⟨_ | _ | _, tag, attributes, children, text, trail⟩ := node
  · cases hforeign
  · rfl
  · rfl

/-! ## 2. What a reduced node has -/

/-- The attributes that are a source of some construct. -/
def sourceKeys : List String := ["eval", "value", "count", "ref", "buffer"]

theorem precedence_subset (c : Construct) : precedence c ⊆ sourceKeys := by
  cases c <;> decide

theorem precedence_nodup (c : Construct) : (precedence c).Nodup := by
  cases c <;> decide

theorem rivals_construct {node : Node} {c : Construct} (hkind : node.kind = .construct c) :
    rivals node = (precedence c).filter (node.hasAttribute ·) := by
  rw [rivals, hkind]

theorem rivals_foreign {node : Node} (hforeign : isConstruct node = false) : rivals node = [] := by
  obtain ⟨_ | _ | _, tag, attributes, children, text, trail⟩ := node
  · cases hforeign
  · rfl
  · rfl

theorem mem_sourceKeys_of_rivals {node : Node} {key : String} (h : key ∈ rivals node) :
    key ∈ sourceKeys := by
  unfold rivals at h
  split at h
  next c _ => exact precedence_subset c (List.mem_filter.1 h).1
  next => cases h

/-- One node is another one that has given up the sources that are ignored, its children apart. -/
structure Reduct (reduct node : Node) : Prop where
  kind_eq : reduct.kind = node.kind
  tag_eq : reduct.tag = node.tag
  text_eq : reduct.text = node.text
  trail_eq : reduct.trail = node.trail
  attribute_eq : ∀ key, reduct.attribute? key =
    if key ∈ (rivals node).tail then none else node.attribute? key

theorem reduct_settle (node : Node) : Reduct (settle node) node where
  kind_eq := rfl
  tag_eq := rfl
  text_eq := rfl
  trail_eq := rfl
  attribute_eq key := SortedMap.get?_without node.attributes _ key

theorem reduct_reduce (node : Node) : Reduct (reduce node) node := by
  cases hconstruct : isConstruct node with
  | true =>
    obtain ⟨c, hkind⟩ := isConstruct_iff.1 hconstruct
    rw [reduce_construct hkind]
    exact ⟨rfl, rfl, rfl, rfl, (reduct_settle node).attribute_eq⟩
  | false =>
    rw [reduce_foreign hconstruct]
    refine ⟨rfl, rfl, rfl, rfl, fun key => (if_neg ?_).symm⟩
    rw [rivals_foreign hconstruct]
    exact List.not_mem_nil

theorem body_reduce (node : Node) : body (reduce node) = (body node).map reduce := by
  cases hconstruct : isConstruct node with
  | true =>
    obtain ⟨c, hkind⟩ := isConstruct_iff.1 hconstruct
    have hkind' := (reduct_reduce node).kind_eq.trans hkind
    cases hdescends : descends c with
    | true =>
      rw [body_of_descends hkind hdescends, body_of_descends hkind' hdescends, reduce_construct hkind]
      exact if_pos hdescends
    | false =>
      rw [body_of_not_descends hkind hdescends, body_of_not_descends hkind' hdescends]
      rfl
  | false =>
    rw [reduce_foreign hconstruct]
    obtain ⟨_ | _ | _, tag, attributes, children, text, trail⟩ := node
    · cases hconstruct
    · rfl
    · rfl

theorem children_reduce {node : Node} {c : Construct} (hkind : node.kind = .construct c)
    (hparameters : takesParameters c) :
    (reduce node).children = node.children.map settleParameter := by
  have hdescends : descends c = false := by
    cases c <;> first | rfl | cases hparameters
  rw [reduce_construct hkind]
  simp only [hdescends, hparameters, Bool.false_eq_true, if_false, if_true]

/-! ## 3. Values -/

theorem Sources.filter_keys (sources : Sources) (node : Node) :
    sources.keys.filter (node.hasAttribute ·) = (sources.present node).map Prod.fst := by
  unfold keys present
  induction sources with
  | nil => rfl
  | cons source sources ih =>
    have hhas : node.hasAttribute source.1 = (node.attribute? source.1).isSome := rfl
    rw [List.map_cons, List.filter_cons, List.filterMap_cons, hhas]
    cases node.attribute? source.1 with
    | none => exact ih
    | some value => simp [ih]

/-- If a node gives up the sources behind its first one, then this one is left. -/
theorem Sources.present_of_tail {sources : Sources} (hnodup : sources.keys.Nodup) {reduct node : Node}
    (h : ∀ key, reduct.attribute? key =
      if key ∈ (sources.keys.filter (node.hasAttribute ·)).tail then none else node.attribute? key) :
    sources.present reduct = (sources.present node).take 1 := by
  induction sources with
  | nil => rfl
  | cons source sources ih =>
    obtain ⟨hfresh, hnodup⟩ := List.nodup_cons.1 hnodup
    have hhas : node.hasAttribute source.1 = (node.attribute? source.1).isSome := rfl
    have hrivals : (keys (source :: sources)).filter (node.hasAttribute ·) =
        if (node.attribute? source.1).isSome then
          source.1 :: (keys sources).filter (node.hasAttribute ·)
        else (keys sources).filter (node.hasAttribute ·) := by
      rw [← hhas]
      exact List.filter_cons
    cases hvalue : node.attribute? source.1 with
    | none =>
      simp only [hvalue, Option.isSome_none, Bool.false_eq_true, if_false] at hrivals
      rw [hrivals] at h
      have hnone : reduct.attribute? source.1 = none := by
        rw [h, hvalue]
        exact ite_self none
      have hrest := ih hnodup h
      unfold present at hrest ⊢
      rw [List.filterMap_cons, List.filterMap_cons, hvalue, hnone]
      exact hrest
    | some value =>
      simp only [hvalue, Option.isSome_some, if_true] at hrivals
      rw [hrivals, List.tail_cons] at h
      have hfirst : reduct.attribute? source.1 = some value := by
        rw [h, hvalue]
        exact if_neg fun hmem => hfresh (List.mem_filter.1 hmem).1
      -- the other sources are among the rivals or were not there to begin with
      have hrest : present sources reduct = [] := by
        refine List.filterMap_eq_nil_iff.2 fun other hother => ?_
        have hnone : reduct.attribute? other.1 = none := by
          rw [h]
          by_cases hrival : node.hasAttribute other.1
          · exact if_pos (List.mem_filter.2 ⟨List.mem_map_of_mem hother, hrival⟩)
          · rw [show node.attribute? other.1 = none from Option.not_isSome_iff_eq_none.1 hrival]
            exact ite_self none
        rw [hnone, Option.map_none]
      unfold present at hrest ⊢
      rw [List.filterMap_cons, List.filterMap_cons, hvalue, hfirst]
      simp only [Option.map_some, List.take_succ_cons, List.take_zero, hrest]

namespace Reduct

variable {reduct node : Node} (h : Reduct reduct node)
include h

theorem attribute_kept {key : String} (hkey : key ∉ sourceKeys) :
    reduct.attribute? key = node.attribute? key :=
  (h.attribute_eq key).trans
    (if_neg fun hmem => hkey (mem_sourceKeys_of_rivals (List.mem_of_mem_tail hmem)))

theorem hasAttribute_kept {key : String} (hkey : key ∉ sourceKeys) :
    reduct.hasAttribute key = node.hasAttribute key :=
  congrArg Option.isSome (h.attribute_kept hkey)

theorem operand_kept {key : String} (hkey : key ∉ sourceKeys) :
    operand reduct key = operand node key := by
  rw [operand, operand, h.attribute_kept hkey]

theorem comparison_kept (allowed : List Condition) :
    comparison reduct allowed = comparison node allowed := by
  rw [comparison, comparison, h.attribute_kept (by decide)]

section Values

variable {c : Construct} {sources : Sources} (hkind : node.kind = .construct c)
  (hkeys : sources.keys = precedence c)
include hkind hkeys

theorem present_eq : sources.present reduct = (sources.present node).take 1 :=
  Sources.present_of_tail (hkeys ▸ precedence_nodup c)
    (hkeys ▸ rivals_construct hkind ▸ h.attribute_eq)

theorem first?_eq : sources.first? reduct = sources.first? node := by
  rw [Sources.first?, Sources.first?, h.present_eq hkind hkeys]
  cases sources.present node <;> rfl

theorem instruction_eq : sources.instruction reduct = sources.instruction node := by
  rw [Sources.instruction, Sources.instruction, h.first?_eq hkind hkeys]

end Values

/-! ## 4. Code -/

theorem setCode_eq (hkind : node.kind = .construct .set) : setCode reduct = setCode node := by
  rw [setCode, setCode, h.instruction_eq hkind rfl, h.hasAttribute_kept (by decide),
    h.operand_kept (by decide)]

theorem appendedTo_eq (hkind : node.kind = .construct .buffer) :
    appendedTo reduct = appendedTo node := by
  rw [appendedTo, appendedTo, h.first?_eq hkind rfl, textOf?, textOf?, h.text_eq]

theorem bufferCode_eq (hkind : node.kind = .construct .buffer) :
    bufferCode reduct = bufferCode node := by
  rw [bufferCode, bufferCode, h.appendedTo_eq hkind, h.hasAttribute_kept (by decide),
    h.operand_kept (by decide)]

theorem callCode_eq (hparameters : parameterCode reduct = parameterCode node)
    (dispatch : List Instruction) : callCode reduct dispatch = callCode node dispatch := by
  rw [callCode, callCode, hparameters, h.attribute_kept (by decide)]

end Reduct

theorem parameterCode_reduce {node : Node} {c : Construct} (hkind : node.kind = .construct c)
    (hparameters : takesParameters c) : parameterCode (reduce node) = parameterCode node := by
  unfold parameterCode
  rw [children_reduce hkind hparameters]
  induction node.children with
  | nil => rfl
  | cons child children ih =>
    rw [List.map_cons, List.filter_cons, List.filter_cons, settleParameter]
    by_cases hset : child.kind = .construct .set
    · have hkept : (settle child).kind = .construct .set := hset
      simp only [hset, hkept, decide_true, if_true, List.flatMap_cons, ih,
        (reduct_settle child).setCode_eq hset]
    · simp only [hset, decide_false, Bool.false_eq_true, if_false, ih]

theorem scheme_reduce {node : Node} {c : Construct} (hkind : node.kind = .construct c)
    (base length : Nat) : scheme c (reduce node) base length = scheme c node base length := by
  have h := reduct_reduce node
  -- a construct reads no source but those of its own precedence, and of these the first one only
  cases c with
  | block | label | ret => rfl
  | ifThen =>
    rw [scheme, scheme, h.instruction_eq hkind rfl, h.operand_kept (by decide), h.comparison_kept]
  | whileLoop => rw [scheme, scheme, h.instruction_eq hkind rfl, h.operand_kept (by decide)]
  | forLoop => rw [scheme, scheme, h.instruction_eq hkind rfl, h.operand_kept (by decide)]
  | assertion => rw [scheme, scheme, h.operand_kept (by decide), h.comparison_kept]
  | set => rw [scheme, scheme, h.setCode_eq hkind]
  | input => rw [scheme, scheme, h.instruction_eq hkind rfl, h.operand_kept (by decide)]
  | buffer => rw [scheme, scheme, h.bufferCode_eq hkind]
  | math =>
    rw [scheme, scheme, h.instruction_eq hkind rfl, h.operand_kept (by decide),
      h.operand_kept (by decide), h.attribute_kept (by decide)]
  | goto => rw [scheme, scheme, h.operand_kept (by decide)]
  | call | exec | subroutine | memberCall =>
    have hcall := h.callCode_eq (parameterCode_reduce hkind rfl)
    simp (disch := decide) only [scheme, hcall, h.operand_kept]

/-- Lowering does not see whether sources that it ignores are there. -/
theorem neutral_reduce : Neutral reduce where
  kind_eq node := (reduct_reduce node).kind_eq
  body_eq := body_reduce
  scheme_eq _ _ hkind := scheme_reduce hkind
  labelName_eq node := by
    rw [labelName?, labelName?, (reduct_reduce node).kind_eq,
      (reduct_reduce node).attribute_kept (by decide)]
  gotoLabel_eq node := by
    rw [gotoLabel?, gotoLabel?, (reduct_reduce node).kind_eq,
      (reduct_reduce node).attribute_kept (by decide)]

/-! ## 5. Warnings -/

/-- The warning about the value of a node, if two or more attributes compete for it. -/
def warnings (node : Node) : List Diagnostic :=
  if 2 ≤ (rivals node).length then
    [.sourcesIgnored node.trail node.tag ((rivals node).headD "") (rivals node).tail]
  else []

/-- The nodes whose values are chosen when a node itself is lowered: the parameters of a call, or else
the node. -/
def choosers (node : Node) : List Node :=
  match node.kind with
  | .construct c =>
    if takesParameters c then node.children.filter fun child => child.kind = .construct .set
    else [node]
  | _ => []

theorem warnings_of_precedence {node : Node} {c : Construct} (hkind : node.kind = .construct c)
    (h : precedence c = []) : warnings node = [] := by
  rw [warnings, rivals_construct hkind, h]
  rfl

/-- Entries without warnings about sources stay if such warnings are left out. -/
theorem filter_not_eq_self {entries : List Diagnostic}
    (h : entries.filter Diagnostic.isSourcesIgnored = []) :
    entries.filter (fun entry => !entry.isSourcesIgnored) = entries := by
  rw [List.filter_eq_self]
  intro entry hentry
  rw [Bool.eq_false_iff.2 (List.filter_eq_nil_iff.1 h entry hentry)]
  rfl

section Values

variable {node : Node} {c : Construct} {sources : Sources} (hkind : node.kind = .construct c)
  (hkeys : sources.keys = precedence c)
include hkind hkeys

theorem ignored_warnings :
    (sources.ignored node).filter Diagnostic.isSourcesIgnored = warnings node := by
  rw [Sources.ignored, warnings, rivals_construct hkind, ← hkeys, Sources.filter_keys]
  rcases sources.present node with _ | ⟨first, _ | ⟨second, rest⟩⟩
  · rfl
  · rfl
  · simp [Diagnostic.isSourcesIgnored]

theorem sources_warnings :
    (sources.remarks node).filter Diagnostic.isSourcesIgnored = warnings node := by
  rw [Sources.remarks]
  split
  next hnone =>
    rw [warnings, rivals_construct hkind, ← hkeys, Sources.filter_keys, hnone]
    rfl
  next => exact ignored_warnings hkind hkeys

end Values

theorem set_warnings {node : Node} (hkind : node.kind = .construct .set) :
    (setRemarks node).filter Diagnostic.isSourcesIgnored = warnings node := by
  rw [setRemarks, List.filter_append, filter_absence (fun _ _ _ => rfl), sources_warnings hkind rfl,
    List.nil_append]

theorem parameters_warnings (node : Node) :
    (parameterRemarks node).filter Diagnostic.isSourcesIgnored =
      (node.children.filter fun child => child.kind = .construct .set).flatMap warnings := by
  rw [parameterRemarks, List.filter_flatMap]
  induction node.children with
  | nil => rfl
  | cons child children ih =>
    rw [List.flatMap_cons, ih, List.filter_cons]
    by_cases hset : child.kind = .construct .set
    · rw [if_pos hset, if_pos (decide_eq_true hset), List.flatMap_cons, set_warnings hset]
    · rw [if_neg hset, if_neg (fun h => hset (of_decide_eq_true h))]
      rfl

theorem constructRemarks_warnings {node : Node} {c : Construct} (hkind : node.kind = .construct c) :
    (constructRemarks c node).filter Diagnostic.isSourcesIgnored =
      if takesParameters c then
        (node.children.filter fun child => child.kind = .construct .set).flatMap warnings
      else warnings node := by
  have habsence {key : String} : (absence node key).filter Diagnostic.isSourcesIgnored = [] :=
    filter_absence (fun _ _ _ => rfl) key
  have hcomparison {allowed : List Condition} :
      (comparisonRemarks node allowed).filter Diagnostic.isSourcesIgnored = [] :=
    filter_comparison (fun _ _ _ => rfl) allowed
  have hclear : (clearRemarks node).filter Diagnostic.isSourcesIgnored = [] :=
    filter_clear fun _ _ => rfl
  cases c with
  | block | ret => exact (warnings_of_precedence hkind rfl).symm
  | goto | label => exact habsence.trans (warnings_of_precedence hkind rfl).symm
  | assertion =>
    rw [constructRemarks, List.filter_append, habsence, hcomparison]
    exact (warnings_of_precedence hkind rfl).symm
  | ifThen =>
    rw [constructRemarks, List.filter_append, List.filter_append, habsence, hcomparison,
      sources_warnings hkind rfl]
    exact List.append_nil _
  | whileLoop =>
    rw [constructRemarks, setRemarks, List.filter_append, habsence, sources_warnings hkind rfl]
    rfl
  | forLoop =>
    rw [constructRemarks, List.filter_append, habsence, sources_warnings hkind rfl]
    rfl
  | input =>
    rw [constructRemarks, List.filter_append, habsence, sources_warnings hkind rfl]
    rfl
  | set => exact set_warnings hkind
  | buffer =>
    rw [constructRemarks, List.filter_append, List.filter_append, habsence, hclear,
      ignored_warnings hkind rfl]
    exact List.append_nil _
  | math =>
    rw [constructRemarks, List.filter_append, List.filter_append, habsence, habsence,
      sources_warnings hkind rfl]
    rfl
  | call | exec | subroutine =>
    rw [constructRemarks, List.filter_append, habsence, parameters_warnings]
    rfl
  | memberCall =>
    rw [constructRemarks, List.filter_append, List.filter_append, habsence, habsence,
      parameters_warnings]
    rfl

/-- The warnings about sources among the remarks on a node are those about the values chosen there. -/
theorem remarks_warnings (node : Node) :
    (remarks node).filter Diagnostic.isSourcesIgnored = (choosers node).flatMap warnings := by
  cases hkind : node.kind with
  | construct c =>
    simp only [remarks, choosers, hkind, constructRemarks_warnings hkind]
    split
    next => rfl
    next => exact (List.append_nil _).symm
  | part | foreign => simp only [remarks, choosers, hkind, List.filter_nil, List.flatMap_nil]

namespace Reduct

variable {reduct node : Node} (h : Reduct reduct node)
include h

theorem absence_eq {key : String} (hkey : key ∉ sourceKeys) :
    absence reduct key = (absence node key).filter fun entry => !entry.isSourcesIgnored := by
  rw [filter_not_eq_self (filter_absence (fun _ _ _ => rfl) key), absence, absence,
    h.hasAttribute_kept hkey, h.trail_eq, h.tag_eq]

theorem comparisonRemarks_eq (allowed : List Condition) :
    comparisonRemarks reduct allowed =
      (comparisonRemarks node allowed).filter fun entry => !entry.isSourcesIgnored := by
  rw [filter_not_eq_self (filter_comparison (fun _ _ _ => rfl) allowed), comparisonRemarks,
    comparisonRemarks, h.attribute_kept (by decide), h.trail_eq, h.tag_eq]

theorem clearRemarks_eq (hkind : node.kind = .construct .buffer) :
    clearRemarks reduct = (clearRemarks node).filter fun entry => !entry.isSourcesIgnored := by
  rw [filter_not_eq_self (filter_clear fun _ _ => rfl), clearRemarks, clearRemarks,
    h.hasAttribute_kept (by decide), h.appendedTo_eq hkind, h.operand_kept (by decide), h.trail_eq]

section Sources

variable {c : Construct} {sources : Sources} (hkind : node.kind = .construct c)
  (hkeys : sources.keys = precedence c)
include hkind hkeys

theorem ignored_eq :
    sources.ignored reduct = (sources.ignored node).filter fun entry => !entry.isSourcesIgnored := by
  rw [Sources.ignored, Sources.ignored, h.present_eq hkind hkeys]
  rcases sources.present node with _ | ⟨first, _ | ⟨second, rest⟩⟩
  · rfl
  · rfl
  · rfl

theorem remarks_eq :
    sources.remarks reduct = (sources.remarks node).filter fun entry => !entry.isSourcesIgnored := by
  rw [Sources.remarks, Sources.remarks, h.ignored_eq hkind hkeys, h.present_eq hkind hkeys,
    h.trail_eq, h.tag_eq]
  cases sources.present node with
  | nil => rfl
  | cons first rest => rfl

end Sources

theorem setRemarks_eq (hkind : node.kind = .construct .set) :
    setRemarks reduct = (setRemarks node).filter fun entry => !entry.isSourcesIgnored := by
  rw [setRemarks, setRemarks, h.absence_eq (by decide), h.remarks_eq hkind rfl, List.filter_append]

end Reduct

theorem parameterRemarks_reduce {node : Node} {c : Construct} (hkind : node.kind = .construct c)
    (hparameters : takesParameters c) :
    parameterRemarks (reduce node) =
      (parameterRemarks node).filter fun entry => !entry.isSourcesIgnored := by
  rw [parameterRemarks, parameterRemarks, children_reduce hkind hparameters, List.flatMap_map,
    List.filter_flatMap]
  congr 1
  funext child
  rw [settleParameter]
  by_cases hset : child.kind = .construct .set
  · have hkept : (settle child).kind = .construct .set := hset
    rw [if_pos hset, if_pos hkept, if_pos hset, (reduct_settle child).setRemarks_eq hset]
  · rw [if_neg hset, if_neg hset]
    rfl

/-- A reduced node is remarked upon like the node itself, but for the warnings about sources. -/
theorem remarks_reduce (node : Node) :
    remarks (reduce node) = (remarks node).filter fun entry => !entry.isSourcesIgnored := by
  have h := reduct_reduce node
  unfold remarks
  rw [h.kind_eq]
  split
  next c hkind =>
    cases c with
    | block | ret => rfl
    | ifThen =>
      rw [constructRemarks, constructRemarks, h.absence_eq (by decide), h.remarks_eq hkind rfl,
        h.comparisonRemarks_eq, List.filter_append, List.filter_append]
    | whileLoop =>
      rw [constructRemarks, constructRemarks, setRemarks, setRemarks, h.absence_eq (by decide),
        h.remarks_eq hkind rfl, List.filter_append]
    | forLoop =>
      rw [constructRemarks, constructRemarks, h.absence_eq (by decide), h.remarks_eq hkind rfl,
        List.filter_append]
    | input =>
      rw [constructRemarks, constructRemarks, h.absence_eq (by decide), h.remarks_eq hkind rfl,
        List.filter_append]
    | set => exact h.setRemarks_eq hkind
    | assertion =>
      rw [constructRemarks, constructRemarks, h.absence_eq (by decide), h.comparisonRemarks_eq,
        List.filter_append]
    | buffer =>
      rw [constructRemarks, constructRemarks, h.absence_eq (by decide), h.ignored_eq hkind rfl,
        h.clearRemarks_eq hkind, List.filter_append, List.filter_append]
    | math =>
      rw [constructRemarks, constructRemarks, h.absence_eq (by decide), h.absence_eq (by decide),
        h.remarks_eq hkind rfl, List.filter_append, List.filter_append]
    | goto | label => exact h.absence_eq (by decide)
    | call | exec | subroutine =>
      rw [constructRemarks, constructRemarks, h.absence_eq (by decide),
        parameterRemarks_reduce hkind rfl, List.filter_append]
    | memberCall =>
      rw [constructRemarks, constructRemarks, h.absence_eq (by decide), h.absence_eq (by decide),
        parameterRemarks_reduce hkind rfl, List.filter_append, List.filter_append]
  next => rfl

theorem filter_redefinition (labels : SortedMap Nat) (node : Node) :
    (redefinition labels node).filter Diagnostic.isSourcesIgnored = [] := by
  unfold redefinition
  split
  · rfl
  · split <;> rfl

theorem redefinition_reduce (labels : SortedMap Nat) (node : Node) :
    redefinition labels (reduce node) = redefinition labels node := by
  rw [redefinition, redefinition, neutral_reduce.labelName_eq, (reduct_reduce node).trail_eq]

theorem remarksAll_reduce (labels : SortedMap Nat) (places : List (Nat × Node)) :
    remarksAll labels (places.map (Prod.map id reduce)) =
      (remarksAll labels places).filter fun entry => !entry.isSourcesIgnored := by
  induction places generalizing labels with
  | nil => rfl
  | cons place places ih =>
    have hlabels : defineAt labels (Prod.map id reduce place) = defineAt labels place := by
      rw [defineAt, defineAt, Prod.map_snd, Prod.map_fst, neutral_reduce.labelName_eq]
      rfl
    rw [List.map_cons, remarksAll, remarksAll, hlabels, ih, Prod.map_snd, remarks_reduce,
      redefinition_reduce, List.filter_append, List.filter_append,
      filter_not_eq_self (filter_redefinition labels place.2)]

theorem remarksAll_warnings (labels : SortedMap Nat) (places : List (Nat × Node)) :
    (remarksAll labels places).filter Diagnostic.isSourcesIgnored =
      (places.flatMap fun place => choosers place.2).flatMap warnings := by
  induction places generalizing labels with
  | nil => rfl
  | cons place places ih =>
    rw [remarksAll, List.filter_append, List.filter_append, remarks_warnings, filter_redefinition,
      List.append_nil, ih, List.flatMap_cons, List.flatMap_append]

/-! ## 6. Lowering of reduced nodes -/

/-- Sources of lower precedence do nothing but cause their warning. Without them a node is lowered with
the same result to the same code, labels and fixups, and the same is reported but for one warning about
each value, among those of the nodes that lowering gets to, that two or more sources compete for. Such a
warning stands among the remarks on its node, where `remarksAll` has it. -/
theorem lower_reduce (node : Node) (s : State) :
    let original := (lower node).run s
    let reduced := (lower (reduce node)).run s
    let places := visited (placed s.code.size node)
    let entries := remarksAll s.labels places
    reduced.1 = original.1 ∧
      reduced.2.code = original.2.code ∧
      reduced.2.labels = original.2.labels ∧
      reduced.2.fixups = original.2.fixups ∧
      reduced.2.diagnostics.errors = original.2.diagnostics.errors ∧
      original.2.diagnostics = s.diagnostics.reportAll entries ∧
      reduced.2.diagnostics =
        s.diagnostics.reportAll (entries.filter fun entry => !entry.isSourcesIgnored) ∧
      entries.filter Diagnostic.isSourcesIgnored =
        (places.flatMap fun place => choosers place.2).flatMap warnings := by
  intro original reduced places entries
  have horiginal : original = (outcome (reached node),
      s.advance places (emitted s.code.size node)) := lower_ends node s
  have hreduced : reduced = (outcome (reached node),
      s.advance (places.map (Prod.map id reduce)) (emitted s.code.size node)) :=
    neutral_reduce.lower_run (fun node => (reduct_reduce node).tag_eq)
      (fun node => (reduct_reduce node).trail_eq) node s
  have hdiagnostics : reduced.2.diagnostics =
      s.diagnostics.reportAll (entries.filter fun entry => !entry.isSourcesIgnored) := by
    rw [hreduced, ← remarksAll_reduce]
    rfl
  have hentries : original.2.diagnostics = s.diagnostics.reportAll entries := by
    rw [horiginal]
    rfl
  have herrors : reduced.2.diagnostics.errors = original.2.diagnostics.errors := by
    rw [hdiagnostics, hentries, Diagnostics.errors_reportAll, Diagnostics.errors_reportAll,
      List.countP_filter]
    refine congrArg (_ + ·) (List.countP_congr fun entry _ => ?_)
    rw [Bool.and_eq_true, Bool.not_eq_true']
    exact and_iff_left_of_imp Diagnostic.isSourcesIgnored_of_isError
  refine ⟨?_, ?_, ?_, ?_, herrors, hentries, hdiagnostics, remarksAll_warnings _ _⟩
  · rw [horiginal, hreduced]
  · rw [horiginal, hreduced]
    rfl
  · rw [horiginal, hreduced]
    exact neutral_reduce.defineAll_map _ _
  · rw [horiginal, hreduced]
    exact congrArg (s.fixups ++ ·.toArray) (neutral_reduce.awaited_map _)

end Lowering

end TreeScript
