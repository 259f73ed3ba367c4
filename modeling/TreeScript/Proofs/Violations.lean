import Mathlib.Data.List.TakeWhile
import TreeScript.Proofs.Conformance
import TreeScript.Proofs.Positions
import TreeScript.Proofs.SortedMap

/-!
# Violations

What validation reports, told without validation: a *breach* is what one element does wrong by the
grammar, and a *finding* is a breach at a way in a document, or its wrong root. Validation reports every
finding once, in the order of the document, and gives out a tree just when there is none.
-/

namespace TreeScript

/-! ## 1. Blank texts -/

theorem Text.trimBlank_eq_nil {cs : List Char} : trimBlank cs = [] ↔ ∀ c ∈ cs, isBlank c := by
  rw [trimBlank, trimEnd, List.reverse_eq_nil_iff, List.dropWhile_eq_nil_iff]
  simp only [List.mem_reverse]
  constructor
  · intro h c hc
    rw [← List.takeWhile_append_dropWhile (p := isBlank) (l := cs)] at hc
    rcases List.mem_append.1 hc with hc | hc
    · exact List.mem_takeWhile_imp hc
    · exact h c hc
  · intro h c hc
    exact h c ((List.dropWhile_sublist isBlank).subset hc)

/-- Only a text of blanks is empty without the blanks around it. -/
theorem Text.trim_ne_empty {text : String} : trim text ≠ "" ↔ ∃ c ∈ text.toList, ¬ isBlank c := by
  rw [ne_eq, trim, String.ofList_eq_empty_iff, trimBlank_eq_nil]
  simp only [not_forall, exists_prop]

/-! ## 2. Breaches -/

/-- What an element may do wrong. -/
inductive Breach where
  | unknown
  | unaccepted (key : String)
  | missing (key : String)
  | text
  /-- The child at the index has a tag that the grammar knows but not here. -/
  | misplaced (index : Nat) (tag : String)

namespace Breach

/-- Whether an element commits a breach. An element without a rule is unknown and commits no other. -/
def IsBy (grammar : Grammar) (element : Element) : Breach → Prop
  | .unknown => grammar.rule? element.tag = none
  | .unaccepted key =>
    ∃ rule, grammar.rule? element.tag = some rule ∧
      element.attributes.contains key ∧ ¬ rule.attributes.contains key
  | .missing key =>
    ∃ rule, grammar.rule? element.tag = some rule ∧
      rule.required.contains key ∧ ¬ element.attributes.contains key
  | .text =>
    ∃ rule, grammar.rule? element.tag = some rule ∧ rule.text = false ∧
      ∃ text, element.text = some text ∧ ∃ c ∈ text.toList, ¬ Text.isBlank c
  | .misplaced index tag =>
    ∃ rule, grammar.rule? element.tag = some rule ∧
      (∃ child, element.children[index]? = some child ∧ child.tag = tag) ∧
      grammar.declares tag ∧ ¬ rule.children.contains tag

/-- The entry about a breach by an element with a trail and a tag. -/
def entry (trail : Trail) (tag : String) : Breach → Diagnostic
  | .unknown => .unknownElement trail tag
  | .unaccepted key => .attributeNotAllowed trail key tag
  | .missing key => .attributeRequired trail tag key
  | .text => .textNotAllowed trail tag
  | .misplaced _ child => .childNotAllowed trail child tag

/-- The kinds of breaches in the order in which they are looked for. -/
def rank : Breach → Nat
  | .unknown => 0
  | .unaccepted _ => 1
  | .missing _ => 2
  | .text => 3
  | .misplaced .. => 4

/-- Breaches of one element in order: attributes by their keys, children by their indices. -/
inductive Before : Breach → Breach → Prop where
  | rank {first second : Breach} : first.rank < second.rank → Before first second
  | unaccepted {key key' : String} : key < key' → Before (.unaccepted key) (.unaccepted key')
  | missing {key key' : String} : key < key' → Before (.missing key) (.missing key')
  | misplaced {index index' : Nat} {tag tag' : String} :
    index < index' → Before (.misplaced index tag) (.misplaced index' tag')

theorem not_before_self (breach : Breach) : ¬ breach.Before breach := by
  intro h
  cases h with
  | rank h => exact Nat.lt_irrefl _ h
  | unaccepted h => exact String.lt_irrefl _ h
  | missing h => exact String.lt_irrefl _ h
  | misplaced h => exact Nat.lt_irrefl _ h

/-- Breaches of earlier kinds stand before those of later ones. -/
theorem pairwise_append {first second : List Breach} (rank : Nat) (hfirst : first.Pairwise Before)
    (hle : ∀ breach ∈ first, breach.rank ≤ rank) (hlt : ∀ breach ∈ second, rank < breach.rank)
    (hsecond : second.Pairwise Before) : (first ++ second).Pairwise Before := by
  apply List.pairwise_append.2
  refine ⟨hfirst, hsecond, fun a ha b hb => .rank ?_⟩
  exact Nat.lt_of_le_of_lt (hle a ha) (hlt b hb)

end Breach

namespace Grammar

/-- The breaches of a rule by an element. -/
def ruleBreaches (grammar : Grammar) (rule : Rule) (element : Element) : List Breach :=
  let hasText := (element.text.map fun text => Text.trim text != "").getD false
  let misplaced := element.children.zipIdx.filter fun child =>
    grammar.declares child.1.tag && !rule.children.contains child.1.tag
  (element.attributes.keys.filter fun key => !rule.attributes.contains key).map .unaccepted ++
    ((rule.required.keys.filter fun key => !element.attributes.contains key).map .missing ++
      ((if !rule.text && hasText then [.text] else []) ++
        misplaced.map fun child => .misplaced child.2 child.1.tag))

/-- The breaches of a grammar by an element. -/
def breaches (grammar : Grammar) (element : Element) : List Breach :=
  (grammar.rule? element.tag).elim [.unknown] fun rule => grammar.ruleBreaches rule element

theorem hasText_iff {element : Element} :
    (element.text.map fun text => Text.trim text != "").getD false = true ↔
      ∃ text, element.text = some text ∧ ∃ c ∈ text.toList, ¬ Text.isBlank c := by
  cases element.text with
  | none => simp
  | some text =>
    simp only [Option.map_some, Option.getD_some, bne_iff_ne, Text.trim_ne_empty,
      Option.some.injEq, exists_eq_left']

/-- The breaches that are listed are those that the element commits. -/
theorem mem_breaches {grammar : Grammar} {element : Element} {breach : Breach} :
    breach ∈ grammar.breaches element ↔ breach.IsBy grammar element := by
  unfold breaches
  cases hrule : grammar.rule? element.tag with
  | none => cases breach <;> simp [Breach.IsBy, hrule]
  | some rule =>
    simp only [Option.elim_some, ruleBreaches, List.mem_append, List.mem_map, List.mem_filter,
      List.mem_ite_nil_right, List.mem_singleton, SortedMap.mem_keys]
    cases breach with
    | unknown => simp [Breach.IsBy, hrule]
    | unaccepted key => simp [Breach.IsBy, hrule]
    | missing key => simp [Breach.IsBy, hrule]
    | text => simp [Breach.IsBy, hrule, hasText_iff]
    | misplaced index tag =>
      simp only [Breach.IsBy, hrule, Option.some.injEq, exists_eq_left', Prod.exists,
        List.mem_zipIdx_iff_getElem?, Breach.misplaced.injEq, reduceCtorEq, and_false, exists_false,
        false_or, Bool.and_eq_true, Bool.not_eq_true', Bool.not_eq_true]
      constructor
      · rintro ⟨child, i, ⟨hchild, hdeclared, hplaced⟩, rfl, rfl⟩
        exact ⟨⟨child, hchild, rfl⟩, hdeclared, hplaced⟩
      · rintro ⟨⟨child, hchild, rfl⟩, hdeclared, hplaced⟩
        exact ⟨child, index, ⟨hchild, hdeclared, hplaced⟩, rfl, rfl⟩

/-- The breaches of an element are listed in order. -/
theorem breaches_pairwise (grammar : Grammar) (element : Element) :
    (grammar.breaches element).Pairwise Breach.Before := by
  unfold breaches
  cases grammar.rule? element.tag with
  | none => exact List.pairwise_singleton _ _
  | some rule =>
    have hindices : element.children.zipIdx.Pairwise (fun a b => a.2 < b.2) := by
      rw [← List.pairwise_map, List.zipIdx_map_snd]
      exact List.pairwise_lt_range' 1
    have hranks {c : Prop} [Decidable c] {p : Breach → Prop} :
        (∀ breach ∈ (if c then [Breach.text] else []), p breach) ↔ (c → p .text) := by
      split <;> simp [*]
    rw [Option.elim_some, ruleBreaches]
    -- within a kind the keys or indices ascend, and from kind to kind the ranks do
    apply Breach.pairwise_append 1
    · exact List.pairwise_map.2 ((element.attributes.keys_pairwise.filter _).imp .unaccepted)
    · simp only [List.forall_mem_map, Breach.rank, Nat.le_refl, implies_true]
    · simp only [List.forall_mem_append, List.forall_mem_map, hranks, Breach.rank, Nat.reduceLT,
        implies_true, and_self]
    apply Breach.pairwise_append 2
    · exact List.pairwise_map.2 ((rule.required.keys_pairwise.filter _).imp .missing)
    · simp only [List.forall_mem_map, Breach.rank, Nat.le_refl, implies_true]
    · simp only [List.forall_mem_append, List.forall_mem_map, hranks, Breach.rank, Nat.reduceLT,
        implies_true, and_self]
    apply Breach.pairwise_append 3
    · split
      · exact List.pairwise_singleton _ _
      · exact .nil
    · simp only [hranks, Breach.rank, Nat.le_refl, implies_true]
    · simp only [List.forall_mem_map, Breach.rank, Nat.reduceLT, implies_true]
    · exact List.pairwise_map.2 ((hindices.filter _).imp .misplaced)

/-- Each breach of an element is reported by an entry of its own. -/
theorem violations_eq_map (grammar : Grammar) (trail : Trail) (element : Element) :
    grammar.violations trail element =
      (grammar.breaches element).map (Breach.entry trail element.tag) := by
  unfold violations breaches
  cases grammar.rule? element.tag with
  | none => rfl
  | some rule =>
    -- the indices of the children are not part of their entries
    have hchildren (p : Element → Bool) : element.children.filter p =
        (element.children.zipIdx.filter fun child => p child.1).map Prod.fst :=
      calc element.children.filter p
        _ = (element.children.zipIdx.map Prod.fst).filter p := by rw [List.zipIdx_map_fst]
        _ = _ := List.filter_map
    simp only [ruleViolations, Option.elim_some, ruleBreaches, List.map_append, List.map_map, hchildren,
      List.append_assoc, apply_ite (List.map (Breach.entry trail element.tag)), List.map_cons,
      List.map_nil]
    rfl

end Grammar

/-! ## 3. Findings -/

/-- What a document may do wrong. -/
inductive Finding where
  | wrongRoot
  | committed (way : List Nat) (element : Element) (breach : Breach)

namespace Finding

/-- Whether a document does wrong as a finding says. -/
def IsIn (grammar : Grammar) (document : Document) : Finding → Prop
  | .wrongRoot => document.root.tag ≠ grammar.root
  | .committed way element breach =>
    document.root.along? way = some element ∧ breach.IsBy grammar element

/-- The entry about a finding. -/
def entry (grammar : Grammar) (document : Document) : Finding → Diagnostic
  | .wrongRoot => .wrongRoot grammar.root document.root.tag
  | .committed way element breach => breach.entry (document.root.trailAlong way) element.tag

/-- Findings in the order of the document, a wrong root first. -/
inductive Before : Finding → Finding → Prop where
  | root {way : List Nat} {element : Element} {breach : Breach} :
    Before .wrongRoot (.committed way element breach)
  | way {way way' : List Nat} {element element' : Element} {breach breach' : Breach} :
    way < way' → Before (.committed way element breach) (.committed way' element' breach')
  | breach {way : List Nat} {element : Element} {breach breach' : Breach} :
    breach.Before breach' → Before (.committed way element breach) (.committed way element breach')

theorem not_before_self (finding : Finding) : ¬ finding.Before finding := by
  intro h
  cases h with
  | way h => exact List.lt_irrefl _ h
  | breach h => exact Breach.not_before_self _ h

theorem severity_entry (grammar : Grammar) (document : Document) (finding : Finding) :
    (finding.entry grammar document).severity = .error := by
  cases finding with
  | wrongRoot => rfl
  | committed way element breach => cases breach <;> rfl

end Finding

namespace Grammar

/-- The breaches by an element at a way. -/
def findingsAt (grammar : Grammar) (place : List Nat × Element) : List Finding :=
  (grammar.breaches place.2).map (.committed place.1 place.2)

/-- The findings in a document. -/
def findings (grammar : Grammar) (document : Document) : List Finding :=
  (if document.root.tag ≠ grammar.root then [.wrongRoot] else []) ++
    document.root.waysIn.flatMap grammar.findingsAt

theorem mem_findings {grammar : Grammar} {document : Document} {finding : Finding} :
    finding ∈ grammar.findings document ↔ finding.IsIn grammar document := by
  rw [findings, List.mem_append, List.mem_ite_nil_right, List.mem_singleton, List.mem_flatMap]
  simp only [findingsAt, List.mem_map]
  cases finding with
  | wrongRoot => simp [Finding.IsIn]
  | committed way element breach =>
    rw [Finding.IsIn, ← Element.mem_waysIn, ← mem_breaches]
    constructor
    · rintro (⟨-, h⟩ | ⟨place, hplace, breach', hbreach, heq⟩)
      · cases h
      · cases heq
        exact ⟨hplace, hbreach⟩
    · rintro ⟨hplace, hbreach⟩
      exact .inr ⟨(way, element), hplace, breach, hbreach, rfl⟩

theorem findings_pairwise (grammar : Grammar) (document : Document) :
    (grammar.findings document).Pairwise Finding.Before := by
  apply List.pairwise_append.2
  refine ⟨?_, ?_, fun first hfirst second hsecond => ?_⟩
  · split
    · exact List.pairwise_singleton _ _
    · exact .nil
  · apply List.pairwise_flatMap.2
    constructor
    · intro place _
      exact List.pairwise_map.2 ((grammar.breaches_pairwise place.2).imp .breach)
    · -- elements at different ways are ordered by these, whatever their breaches
      apply document.root.waysIn_pairwise.imp
      intro place place' hlt first hfirst second hsecond
      obtain ⟨breach, -, rfl⟩ := List.mem_map.1 hfirst
      obtain ⟨breach', -, rfl⟩ := List.mem_map.1 hsecond
      exact .way hlt
  · rw [List.mem_ite_nil_right, List.mem_singleton] at hfirst
    obtain ⟨place, -, hsecond⟩ := List.mem_flatMap.1 hsecond
    obtain ⟨breach, -, rfl⟩ := List.mem_map.1 hsecond
    rw [hfirst.2]
    exact .root

mutual

/-- The violations in an element are those by the elements at its ways. -/
theorem violationsIn_eq_flatMap (grammar : Grammar) (trail : Trail) : ∀ element : Element,
    violationsIn grammar trail element = element.waysIn.flatMap fun place =>
      grammar.violations (trail.extend (element.stepsAlong place.1)) place.2
  | ⟨tag, attributes, children, text⟩ => by
    rw [violationsIn, Element.waysIn, List.flatMap_cons, Element.stepsAlong, Trail.extend_nil]
    congr 1
    apply violationsAmong_eq_flatMap grammar trail ⟨tag, attributes, children, text⟩ 0 children
    intro i
    rw [Nat.zero_add]

/-- The children from an index on are looked at as children of their parent, whose steps they take. -/
theorem violationsAmong_eq_flatMap (grammar : Grammar) (trail : Trail) (parent : Element)
    (index : Nat) : ∀ elements : List Element,
    (∀ i, parent.children[index + i]? = elements[i]?) →
    violationsAmong grammar trail index elements =
      (Element.waysAmong index elements).flatMap fun place =>
        grammar.violations (trail.extend (parent.stepsAlong place.1)) place.2
  | [], _ => rfl
  | element :: elements, h => by
    have hfirst : parent.children[index]? = some element := h 0
    rw [violationsAmong, Element.waysAmong, List.flatMap_append, List.flatMap_map,
      violationsIn_eq_flatMap grammar _ element,
      violationsAmong_eq_flatMap grammar trail parent (index + 1) elements]
    · congr 1
      simp only [Element.stepsAlong, hfirst, Option.elim_some, Trail.child_extend]
    · intro i
      rw [Nat.add_right_comm, Nat.add_assoc, h]
      rfl

end

/-- Each finding is reported by an entry of its own. -/
theorem violationsOf_eq_map (grammar : Grammar) (document : Document) :
    grammar.violationsOf document =
      (grammar.findings document).map (Finding.entry grammar document) := by
  rw [violationsOf, violationsIn_eq_flatMap, findings, List.map_append, List.map_flatMap]
  congr 1
  · split <;> rfl
  · congr 1
    funext place
    rw [violations_eq_map, findingsAt, List.map_map]
    rfl

end Grammar

/-! ## 4. Validation -/

/-- What a node has from the element that it was made of, and where the element stood. -/
structure Node.Shows (node : Node) (trail : Trail) (element : Element) : Prop where
  kind : node.kind = Kind.ofTag element.tag
  tag : node.tag = element.tag
  attributes : node.attributes = element.attributes
  text : node.text = element.text
  trail : node.trail = trail
  children : node.children.length = element.children.length

theorem Node.shows_ofElementAt (trail : Trail) (element : Element) :
    (ofElementAt trail element).Shows trail element := by
  have hlength : (ofElementAt trail element).children.length = element.children.length := by
    rw [children_ofElementAt, length_ofElementsAt]
  cases element
  rw [ofElementAt] at hlength ⊢
  exact ⟨rfl, rfl, rfl, rfl, rfl, hlength⟩

/-- A tree of nodes with the shape of a tree of elements, which shows at each way what is there. -/
def Node.IsTreeOf (node : Node) (root : Element) : Prop :=
  ∀ way, Option.Rel (fun shown element => shown.Shows (root.trailAlong way) element)
    (node.along? way) (root.along? way)

theorem Node.isTreeOf_ofElement (root : Element) : (ofElement root).IsTreeOf root := by
  intro way
  rw [ofElement, along?_ofElementAt]
  cases root.along? way with
  | none => exact .none
  | some element => exact .some (shows_ofElementAt _ element)

namespace Grammar

/-- Validation is exact and complete. It adds an entry for each finding, in order, and gives a tree
just when there is no finding, whatever was reported before. -/
theorem validate_exact (grammar : Grammar) (document : Document) (d : Diagnostics) :
    ∃ findings : List Finding,
      (∀ finding, finding ∈ findings ↔ finding.IsIn grammar document) ∧
      findings.Nodup ∧ findings.Pairwise Finding.Before ∧
      (grammar.validate document d).2.entries.toList =
        d.entries.toList ++ findings.map (Finding.entry grammar document) ∧
      (∀ finding ∈ findings, (finding.entry grammar document).severity = .error) ∧
      (grammar.validate document d).2.errors = d.errors + findings.length ∧
      (grammar.validate document d).2.warnings = d.warnings ∧
      ((grammar.validate document d).1.isSome ↔ findings = []) ∧
      ∀ node, (grammar.validate document d).1 = some node → node.IsTreeOf document.root := by
  have hreported : grammar.violationsOf document =
      (grammar.findings document).map (Finding.entry grammar document) :=
    grammar.violationsOf_eq_map document
  obtain ⟨herrors, hwarnings⟩ := Diagnostics.counts_reportAll_errors
    (Finding.severity_entry grammar document) (grammar.findings document) d
  rw [← hreported] at herrors hwarnings
  have hunchanged : (d.reportAll (grammar.violationsOf document)).errors = d.errors ↔
      grammar.findings document = [] := by
    rw [herrors, Nat.add_eq_left, List.length_eq_zero_iff]
  refine ⟨grammar.findings document, fun finding => mem_findings, ?_,
    grammar.findings_pairwise document, ?_, fun finding _ => finding.severity_entry grammar document,
    ?_, ?_, ?_, ?_⟩
  · refine (grammar.findings_pairwise document).imp ?_
    rintro finding other hbefore rfl
    exact Finding.not_before_self finding hbefore
  · rw [validate_apply, ← hreported, Diagnostics.entries_reportAll, Array.toList_append]
  · rw [validate_apply, herrors]
  · rw [validate_apply, hwarnings]
  · rw [validate_apply, ← hunchanged]
    by_cases h : (d.reportAll (grammar.violationsOf document)).errors = d.errors
    · rw [if_pos h]
      exact iff_of_true rfl h
    · rw [if_neg h]
      exact iff_of_false Bool.false_ne_true h
  · intro node hnode
    rw [validate_apply] at hnode
    split at hnode
    · cases hnode
      exact Node.isTreeOf_ofElement document.root
    · cases hnode

end Grammar

end TreeScript
