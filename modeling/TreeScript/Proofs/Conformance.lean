import TreeScript.Grammar.Validation
import TreeScript.Proofs.Reports

/-!
# Conformance

Validation reports every violation of a grammar, element by element, and hands out the nodes of a
document just when the document conforms to the grammar: its root has the right tag, and every
element in it has a rule and keeps to it.
-/

namespace TreeScript

/-! ## 1. Documents that conform -/

/-- An element with attributes and text as a rule asks for. -/
structure Rule.Permits (rule : Rule) (element : Element) : Prop where
  accepted : ∀ key ∈ element.attributes.keys, rule.attributes.contains key
  required : ∀ key ∈ rule.required.keys, element.attributes.contains key
  blank : rule.text = false → ∀ text, element.text = some text → Text.trim text = ""

namespace Grammar

/-- An element that keeps to the rule of its tag, and so do all elements in it. -/
inductive Conforms (grammar : Grammar) : Element → Prop where
  | intro {element : Element} {rule : Rule}
    (declared : grammar.rule? element.tag = some rule)
    (permits : rule.Permits element)
    (tags : ∀ child ∈ element.children, rule.children.contains child.tag)
    (children : ∀ child ∈ element.children, Conforms grammar child) :
    Conforms grammar element

/-- A document whose root has the right tag and conforms. -/
structure Accepts (grammar : Grammar) (document : Document) : Prop where
  root : document.root.tag = grammar.root
  conforms : grammar.Conforms document.root

end Grammar

/-! ## 2. The violations of one element -/

/-- Whether an entry says that a document does not conform to a grammar. -/
def Diagnostic.isViolation : Diagnostic → Bool
  | .wrongRoot .. | .attributeNotAllowed .. | .attributeRequired .. | .textNotAllowed ..
  | .childNotAllowed .. | .unknownElement .. => true
  | _ => false

theorem Diagnostic.isError_of_isViolation {entry : Diagnostic} (h : entry.isViolation) :
    entry.isError := by
  cases entry with
  | wrongRoot | attributeNotAllowed | attributeRequired | textNotAllowed | childNotAllowed
  | unknownElement => rfl
  | _ => cases h

namespace Grammar

theorem isViolation_of_mem_violations {grammar : Grammar} {trail : Trail} {element : Element}
    {entry : Diagnostic} (h : entry ∈ grammar.violations trail element) : entry.isViolation := by
  unfold violations ruleViolations at h
  split at h
  next =>
    simp only [List.mem_append, List.mem_map, List.mem_ite_nil_right, List.mem_singleton] at h
    rcases h with ((⟨key, -, rfl⟩ | ⟨key, -, rfl⟩) | ⟨-, rfl⟩) | ⟨child, -, rfl⟩ <;> rfl
  next =>
    rw [List.mem_singleton] at h
    subst h
    rfl

/-- An element violates nothing just when it has a rule and keeps to it. A child without a rule is
not in the wrong place: it is reported for itself. -/
theorem violations_eq_nil {grammar : Grammar} {trail : Trail} {element : Element} :
    grammar.violations trail element = [] ↔
      ∃ rule, grammar.rule? element.tag = some rule ∧ rule.Permits element ∧
        ∀ child ∈ element.children, grammar.declares child.tag → rule.children.contains child.tag := by
  unfold violations
  cases grammar.rule? element.tag with
  | none => simp
  | some rule =>
    have hblank : (element.text.map fun text => Text.trim text != "").getD false = false ↔
        ∀ text, element.text = some text → Text.trim text = "" := by
      cases element.text <;> simp
    have hpermits : rule.Permits element ↔
        (∀ key ∈ element.attributes.keys, rule.attributes.contains key) ∧
        (∀ key ∈ rule.required.keys, element.attributes.contains key) ∧
        (rule.text = false → ∀ text, element.text = some text → Text.trim text = "") :=
      ⟨fun h => ⟨h.accepted, h.required, h.blank⟩, fun ⟨h₁, h₂, h₃⟩ => ⟨h₁, h₂, h₃⟩⟩
    simp [ruleViolations, hblank, hpermits, and_assoc]

/-! ## 3. The violations in a tree -/

mutual

/-- The violations by an element and all elements in it, in document order. -/
def violationsIn (grammar : Grammar) (trail : Trail) : Element → List Diagnostic
  | ⟨tag, attributes, children, text⟩ =>
    grammar.violations trail ⟨tag, attributes, children, text⟩ ++
      violationsAmong grammar trail 0 children

/-- The violations by children from an index on, and by all elements in them. -/
def violationsAmong (grammar : Grammar) (trail : Trail) (index : Nat) :
    List Element → List Diagnostic
  | [] => []
  | element :: elements =>
    violationsIn grammar (trail.child element.tag index) element ++
      violationsAmong grammar trail (index + 1) elements

end

mutual

/-- Checking an element reports the violations in it and gives its node, whatever they are. -/
theorem validateElement_apply (grammar : Grammar) (trail : Trail) (d : Diagnostics) :
    ∀ element, validateElement grammar trail element d =
      (Node.ofElementAt trail element, d.reportAll (violationsIn grammar trail element))
  | ⟨tag, attributes, children, text⟩ => by
    simp only [validateElement, violationsIn, Node.ofElementAt, Stateful.bind_apply,
      Reporting.forM_report, validateChildren_apply grammar trail 0 _ children,
      Diagnostics.reportAll_append, Stateful.pure_apply]

theorem validateChildren_apply (grammar : Grammar) (trail : Trail) (index : Nat) (d : Diagnostics) :
    ∀ elements, validateChildren grammar trail index elements d =
      (Node.ofElementsAt trail index elements,
        d.reportAll (violationsAmong grammar trail index elements))
  | [] => rfl
  | element :: elements => by
    simp only [validateChildren, violationsAmong, Node.ofElementsAt, Stateful.bind_apply,
      validateElement_apply grammar _ _ element,
      validateChildren_apply grammar trail (index + 1) _ elements, Diagnostics.reportAll_append,
      Stateful.pure_apply]

end

mutual

/-- There is no violation in an element just when it conforms. -/
theorem violationsIn_eq_nil {grammar : Grammar} (trail : Trail) :
    ∀ element, violationsIn grammar trail element = [] ↔ grammar.Conforms element
  | ⟨tag, attributes, children, text⟩ => by
    rw [violationsIn, List.append_eq_nil_iff, violations_eq_nil,
      violationsAmong_eq_nil trail 0 children]
    constructor
    · rintro ⟨⟨rule, hrule, hpermits, htags⟩, hchildren⟩
      -- a child that conforms has a rule, so its tag was looked at
      refine .intro hrule hpermits (fun child hchild => htags child hchild ?_) hchildren
      cases hchildren child hchild with
      | intro declared => exact Option.isSome_of_mem declared
    · rintro ⟨hrule, hpermits, htags, hchildren⟩
      exact ⟨⟨_, hrule, hpermits, fun child hchild _ => htags child hchild⟩, hchildren⟩

theorem violationsAmong_eq_nil {grammar : Grammar} (trail : Trail) (index : Nat) :
    ∀ elements, violationsAmong grammar trail index elements = [] ↔
      ∀ element ∈ elements, grammar.Conforms element
  | [] => by simp [violationsAmong]
  | element :: elements => by
    rw [violationsAmong, List.append_eq_nil_iff, violationsIn_eq_nil, violationsAmong_eq_nil,
      List.forall_mem_cons]

end

mutual

theorem isViolation_of_mem_violationsIn {grammar : Grammar} {trail : Trail} {entry : Diagnostic} :
    ∀ element, entry ∈ violationsIn grammar trail element → entry.isViolation
  | ⟨tag, attributes, children, text⟩, h => by
    rw [violationsIn, List.mem_append] at h
    rcases h with h | h
    · exact isViolation_of_mem_violations h
    · exact isViolation_of_mem_violationsAmong children h

theorem isViolation_of_mem_violationsAmong {grammar : Grammar} {trail : Trail} {entry : Diagnostic}
    {index : Nat} :
    ∀ elements, entry ∈ violationsAmong grammar trail index elements → entry.isViolation
  | [], h => by cases h
  | element :: elements, h => by
    rw [violationsAmong, List.mem_append] at h
    rcases h with h | h
    · exact isViolation_of_mem_violationsIn element h
    · exact isViolation_of_mem_violationsAmong elements h

end

/-! ## 4. Documents -/

/-- The violations by a document. -/
def violationsOf (grammar : Grammar) (document : Document) : List Diagnostic :=
  (if document.root.tag ≠ grammar.root then [.wrongRoot grammar.root document.root.tag] else []) ++
    violationsIn grammar ⟨document.root.tag, []⟩ document.root

theorem isViolation_of_mem_violationsOf {grammar : Grammar} {document : Document}
    {entry : Diagnostic} (h : entry ∈ grammar.violationsOf document) : entry.isViolation := by
  rcases List.mem_append.1 h with hroot | htree
  · rw [List.mem_ite_nil_right, List.mem_singleton] at hroot
    rw [hroot.2]
    rfl
  · exact isViolation_of_mem_violationsIn _ htree

/-- There is no violation by a document just when the grammar accepts it. -/
theorem violationsOf_eq_nil {grammar : Grammar} {document : Document} :
    grammar.violationsOf document = [] ↔ grammar.Accepts document := by
  rw [violationsOf, List.append_eq_nil_iff, violationsIn_eq_nil]
  constructor
  · rintro ⟨hroot, hconforms⟩
    exact ⟨by simpa using hroot, hconforms⟩
  · rintro ⟨hroot, hconforms⟩
    exact ⟨if_neg fun hne => hne hroot, hconforms⟩

/-- Every violation is an error, so that only a document without one passes. -/
theorem errorless_violationsOf {grammar : Grammar} {document : Document} :
    Errorless (grammar.violationsOf document) ↔ grammar.violationsOf document = [] := by
  constructor
  · intro h
    rw [List.eq_nil_iff_forall_not_mem]
    intro entry hentry
    have herror := Diagnostic.isError_of_isViolation (isViolation_of_mem_violationsOf hentry)
    exact absurd (h entry hentry) (by simp [herror])
  · intro h
    rw [h]
    exact errorless_nil

/-- Validating reports the violations by a document. -/
theorem validate_apply (grammar : Grammar) (document : Document) (d : Diagnostics) :
    grammar.validate document d =
      (if (d.reportAll (grammar.violationsOf document)).errors = d.errors then
          some (Node.ofElement document.root)
        else none,
        d.reportAll (grammar.violationsOf document)) := by
  simp only [validate, violationsOf, Diagnostics.reportAll_append]
  by_cases hroot : document.root.tag = grammar.root
  · simp only [hroot, ne_eq, not_true_eq_false, if_false, Stateful.bind_apply, Stateful.get_apply,
      Stateful.pure_apply, validateElement_apply, Diagnostics.reportAll_nil, Node.ofElement]
    rfl
  · simp only [hroot, ne_eq, not_false_eq_true, if_true, Stateful.bind_apply, Stateful.get_apply,
      Stateful.pure_apply, validateElement_apply, Diagnostics.reportAll_singleton, Node.ofElement]
    rfl

/-- The nodes of a document that the grammar accepts are handed out, and nothing is reported. -/
theorem validate_of_accepts {grammar : Grammar} {document : Document}
    (h : grammar.Accepts document) (d : Diagnostics) :
    grammar.validate document d = (some (Node.ofElement document.root), d) := by
  rw [validate_apply, violationsOf_eq_nil.2 h, Diagnostics.reportAll_nil, if_pos rfl]

/-- The nodes are withheld because of the number of errors, so a violation has to raise it. -/
theorem errors_violationsOf {grammar : Grammar} {document : Document}
    (h : ¬ grammar.Accepts document) (d : Diagnostics) :
    (d.reportAll (grammar.violationsOf document)).errors ≠ d.errors := by
  rwa [ne_eq, Diagnostics.errors_reportAll_eq_iff, errorless_violationsOf, violationsOf_eq_nil]

theorem validate_of_not_accepts {grammar : Grammar} {document : Document}
    (h : ¬ grammar.Accepts document) (d : Diagnostics) :
    grammar.validate document d = (none, d.reportAll (grammar.violationsOf document)) := by
  rw [validate_apply, if_neg (errors_violationsOf h d)]

end Grammar

end TreeScript
