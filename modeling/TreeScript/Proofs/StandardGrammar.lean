import TreeScript.Proofs.Compile
import TreeScript.Proofs.Trails

/-!
# The standard grammar and lowering

The standard grammar and the lowering of constructs describe one language, each in its own way. They
fit each other: the grammar requires the attributes that a construct needs, and allows children only
where lowering looks at them. So no accepted document has a foreign node in its code, and what may
still be wrong with it is what a grammar cannot tell: values, names and the number of parts.
-/

namespace TreeScript

open Lowering

/-! ## 1. Rules and constructs -/

/-- The tags of the children that lowering looks at: those of a body, or those of parameters. -/
def Construct.childTags (c : Construct) : List String :=
  if descends c then Grammar.statementTags
  else if takesParameters c then [Construct.set.tag]
  else []

/-- Whether a rule requires what a construct needs, and allows no children that lowering would not
look at. -/
def Rule.suits (rule : Rule) (c : Construct) : Bool :=
  (needs c).attributes.all rule.required.keys.contains &&
    rule.children.keys.all c.childTags.contains

theorem Construct.ofTag?_tag (c : Construct) : Construct.ofTag? c.tag = some c := by
  cases c <;> rfl

/-- The rules of constructs suit them. -/
theorem Grammar.standard_suits {c : Construct} {rule : Rule}
    (h : Grammar.standard.rule? c.tag = some rule) : rule.suits c := by
  -- the rules are gone through as they are listed, without looking up each tag
  have hall : ∀ entry ∈ Grammar.standardRules,
      (Construct.ofTag? entry.1).all entry.2.suits = true := by
    decide +kernel
  have hsuits := hall _ (SortedMap.mem_of_get?_ofList h)
  rwa [Construct.ofTag?_tag] at hsuits

theorem Construct.tag_of_ofTag? {tag : String} {c : Construct} (h : Construct.ofTag? tag = some c) :
    tag = c.tag := by
  unfold Construct.ofTag? at h
  split at h <;> cases h <;> rfl

theorem Part.tag_of_ofTag? {tag : String} {part : Part} (h : Part.ofTag? tag = some part) :
    tag = part.tag := by
  unfold Part.ofTag? at h
  split at h <;> cases h <;> rfl

/-- The tags of statements are tags of constructs. -/
theorem exists_construct_of_statement {tag : String} (h : tag ∈ Grammar.statementTags) :
    ∃ c : Construct, tag = c.tag ∧ Kind.ofTag tag = .construct c := by
  have hall : ∀ tag ∈ Grammar.statementTags, (Construct.ofTag? tag).isSome := by decide +kernel
  obtain ⟨c, hc⟩ := Option.isSome_iff_exists.1 (hall tag h)
  exact ⟨c, Construct.tag_of_ofTag? hc, by rw [Kind.ofTag, hc]⟩

theorem tag_of_part {tag : String} {part : Part} (h : Kind.ofTag tag = .part part) :
    tag = part.tag := by
  unfold Kind.ofTag at h
  split at h
  next => cases h
  next =>
    split at h
    next hpart =>
      cases h
      exact Part.tag_of_ofTag? hpart
    next => cases h

theorem mem_childTags {c : Construct} {tag : String} (h : tag ∈ c.childTags) :
    tag ∈ Grammar.statementTags ∧ (descends c ∨ takesParameters c ∧ tag = Construct.set.tag) := by
  unfold Construct.childTags at h
  split at h
  next hdescends => exact ⟨h, .inl hdescends⟩
  next =>
    split at h
    next hparameters =>
      rw [List.mem_singleton] at h
      exact ⟨by rw [h]; decide +kernel, .inr ⟨hparameters, h⟩⟩
    next => cases h

/-! ## 2. Nodes that fit -/

/-- A construct with the attributes that it needs, whose children are its body or set its parameters;
and so for all nodes in it. -/
inductive Fitting : Node → Prop where
  | intro {node : Node} {c : Construct} (kind : node.kind = .construct c)
    (attributes : ∀ key ∈ (needs c).attributes, node.hasAttribute key)
    (looked : ∀ child ∈ node.children,
      descends c ∨ takesParameters c ∧ child.kind = .construct .set)
    (children : ∀ child ∈ node.children, Fitting child) : Fitting node

/-- An element of a construct that conforms to the standard grammar has a node that fits. -/
theorem Fitting.of_conforms {element : Element} (h : Grammar.standard.Conforms element)
    (hstatement : element.tag ∈ Grammar.statementTags) (trail : Trail) :
    Fitting (Node.ofElementAt trail element) := by
  -- every child has a trail of its own, and a tag that is a statement's again
  induction h generalizing trail with
  | @intro element rule declared permits tags _ ih =>
    obtain ⟨c, htag, hkind⟩ := exists_construct_of_statement hstatement
    rw [htag] at declared
    have hsuits := Grammar.standard_suits declared
    rw [Rule.suits, Bool.and_eq_true, List.all_eq_true, List.all_eq_true] at hsuits
    have hchild : ∀ child ∈ element.children, child.tag ∈ c.childTags := by
      intro child hmem
      exact List.contains_iff_mem.1 (hsuits.2 _ (SortedMap.mem_keys.2 (tags child hmem)))
    refine .intro ((Node.kind_ofElementAt trail element).trans hkind) ?_ ?_ ?_
    · intro key hkey
      rw [Node.hasAttribute, Node.attributes_ofElementAt]
      exact permits.required key (List.contains_iff_mem.1 (hsuits.1 key hkey))
    · intro node hnode
      rw [Node.children_ofElementAt] at hnode
      obtain ⟨child, hmem, trail', rfl⟩ := Node.mem_ofElementsAt hnode
      rcases (mem_childTags (hchild child hmem)).2 with hdescends | ⟨hparameters, hset⟩
      · exact .inl hdescends
      · rw [Node.kind_ofElementAt, hset]
        exact .inr ⟨hparameters, rfl⟩
    · intro node hnode
      rw [Node.children_ofElementAt] at hnode
      obtain ⟨child, hmem, trail', rfl⟩ := Node.mem_ofElementsAt hnode
      exact ih child hmem (mem_childTags (hchild child hmem)).1 trail'

theorem Fitting.isConstruct {node : Node} (h : Fitting node) : isConstruct node := by
  cases h with
  | intro kind => exact isConstruct_iff.2 ⟨_, kind⟩

/-! ## 3. Nodes that are reached -/

namespace Lowering

private theorem fitting_reached_aux :
    (∀ node, Fitting node → ∀ n ∈ reached node, Fitting n) ∧
      ∀ nodes, (∀ node ∈ nodes, Fitting node) → ∀ n ∈ reachedAll nodes, Fitting n := by
  refine walk_induction ?_ ?_ ?_ ?_
  · intro node hforeign hfitting
    rw [hfitting.isConstruct] at hforeign
    cases hforeign
  · intro node c hkind ih hfitting n hn
    rw [reached_construct hkind, List.mem_cons] at hn
    rcases hn with rfl | hn
    · exact hfitting
    · refine ih (fun child hchild => ?_) n hn
      cases hfitting with
      | intro _ _ _ children => exact children child (mem_children_of_mem_body hchild)
  · intro _ n hn
    cases hn
  · intro node nodes hnode hnodes hfitting n hn
    obtain ⟨hfirst, hrest⟩ := List.forall_mem_cons.1 hfitting
    rw [reachedAll, List.mem_append] at hn
    exact hn.elim (hnode hfirst n) (hnodes hrest n)

theorem fitting_reachedAll {nodes : List Node} (h : ∀ node ∈ nodes, Fitting node) :
    ∀ n ∈ reachedAll nodes, Fitting n :=
  fitting_reached_aux.2 nodes h

end Lowering

/-- The nodes in a node, at any depth. -/
inductive Node.Below (root : Node) : Node → Prop where
  | child {node : Node} (h : node ∈ root.children) : Below root node
  | deeper {parent node : Node} (hparent : Below root parent) (h : node ∈ parent.children) :
    Below root node

/-- Below nodes that fit, everything is reached, or is a parameter of a call that is reached. -/
theorem Fitting.reached_or_parameter {root node : Node}
    (hfitting : ∀ child ∈ root.children, Fitting child) (h : root.Below node) :
    Fitting node ∧ (node ∈ reachedAll root.children ∨
      node.kind = .construct .set ∧ ∃ call ∈ reachedAll root.children, ∃ c,
        call.kind = .construct c ∧ takesParameters c ∧ node ∈ call.children) := by
  -- going down, the parent of a node tells whether lowering goes on to it
  induction h with
  | child h => exact ⟨hfitting _ h, .inl (mem_reachedAll_of_mem h)⟩
  | @deeper parent node _ h ih =>
    obtain ⟨hparent, hplace⟩ := ih
    cases hparent with
    | @intro _ c kind _ looked children =>
      refine ⟨children node h, ?_⟩
      rcases hplace with hreached | ⟨hset, -⟩
      · rcases looked node h with hdescends | ⟨hparameters, hset⟩
        · refine .inl (body_reached hreached ?_)
          rwa [body_of_descends kind hdescends]
        · exact .inr ⟨hset, parent, hreached, c, kind, hparameters, h⟩
      · -- a parameter has no children
        cases kind.symm.trans hset
        rcases looked node h with hdescends | ⟨hparameters, -⟩
        · cases hdescends
        · cases hparameters

/-! ## 4. Parts -/

namespace Grammar

theorem standard_header {rule : Rule} (h : standard.rule? Part.header.tag = some rule) :
    "name" ∈ rule.required.keys ∧ "version-number" ∈ rule.required.keys := by
  have hall : ∀ entry ∈ standardRules, entry.1 = Part.header.tag →
      "name" ∈ entry.2.required.keys ∧ "version-number" ∈ entry.2.required.keys := by
    decide +kernel
  exact hall _ (SortedMap.mem_of_get?_ofList h) rfl

theorem standard_code {rule : Rule} (h : standard.rule? Part.code.tag = some rule) :
    ∀ tag ∈ rule.children.keys, tag ∈ statementTags := by
  have hall : ∀ entry ∈ standardRules, entry.1 = Part.code.tag →
      ∀ tag ∈ entry.2.children.keys, tag ∈ statementTags := by
    decide +kernel
  exact hall _ (SortedMap.mem_of_get?_ofList h) rfl

/-- A part of an accepted document is the node of an element with the tag of the part. -/
theorem Accepts.exists_part {grammar : Grammar} {document : Document}
    (haccepts : grammar.Accepts document) {part : Part} {node : Node}
    (h : node ∈ (Node.ofElement document.root).partsOf part) :
    ∃ element trail, node = Node.ofElementAt trail element ∧ element.tag = part.tag ∧
      grammar.Conforms element := by
  rw [Node.partsOf, List.mem_filter, decide_eq_true_eq, Node.ofElement,
    Node.children_ofElementAt] at h
  obtain ⟨element, hmem, trail, rfl⟩ := Node.mem_ofElementsAt h.1
  rw [Node.kind_ofElementAt] at h
  refine ⟨element, trail, rfl, tag_of_part h.2, ?_⟩
  cases haccepts.conforms with
  | intro _ _ _ children => exact children element hmem

theorem Accepts.header_attributes {document : Document} (haccepts : standard.Accepts document)
    {header : Node} (h : header ∈ (Node.ofElement document.root).partsOf .header) :
    header.hasAttribute "name" ∧ header.hasAttribute "version-number" := by
  obtain ⟨element, trail, rfl, htag, hconforms⟩ := haccepts.exists_part h
  rw [Node.hasAttribute, Node.hasAttribute, Node.attributes_ofElementAt]
  cases hconforms with
  | intro declared permits =>
    rw [htag] at declared
    obtain ⟨hname, hversion⟩ := standard_header declared
    exact ⟨permits.required _ hname, permits.required _ hversion⟩

theorem Accepts.code_fitting {document : Document} (haccepts : standard.Accepts document)
    {code : Node} (h : code ∈ (Node.ofElement document.root).partsOf .code) :
    ∀ child ∈ code.children, Fitting child := by
  intro child hchild
  obtain ⟨element, trail, rfl, htag, hconforms⟩ := haccepts.exists_part h
  rw [Node.children_ofElementAt] at hchild
  obtain ⟨statement, hmem, trail', rfl⟩ := Node.mem_ofElementsAt hchild
  cases hconforms with
  | intro declared _ tags children =>
    rw [htag] at declared
    have hstatement := standard_code declared _ (SortedMap.mem_keys.2 (tags statement hmem))
    exact Fitting.of_conforms (children statement hmem) hstatement trail'

end Grammar

/-! ## 5. Errors -/

/-- Whether an entry is about something that the standard grammar cannot rule out: the number of
parts, the form of a version, the source of a value, a comparison, or the names of labels. -/
def Diagnostic.isBeyondGrammar : Diagnostic → Bool
  | .duplicatePart .. | .aborted (.missingPart _) | .badVersion .. | .sourceAbsent ..
  | .unsupportedComparison .. | .labelRedefined .. | .labelUndefined .. => true
  | _ => false

/-- Whether an entry is about something that the standard grammar does rule out. -/
def Diagnostic.isRuledOut : Diagnostic → Bool
  | .attributeAbsent .. | .namelessHeader .. | .versionlessHeader .. | .notParameter ..
  | .targetPastEnd .. => true
  | _ => false

/-- What is ruled out would be an error of neither kind. -/
theorem Diagnostic.isError_of_isRuledOut {entry : Diagnostic} (h : entry.isRuledOut) :
    entry.isError ∧ entry.isBeyondGrammar = false ∧ entry.isViolation = false := by
  cases entry with
  | attributeAbsent | namelessHeader | versionlessHeader | notParameter | targetPastEnd =>
    exact ⟨rfl, rfl, rfl⟩
  | _ => cases h

/-- Entries with no errors but those that the standard grammar cannot rule out. -/
def BeyondGrammar (entries : List Diagnostic) : Prop :=
  ∀ entry ∈ entries, entry.isError → entry.isBeyondGrammar

theorem Errorless.beyondGrammar {entries : List Diagnostic} (h : Errorless entries) :
    BeyondGrammar entries := by
  intro entry hentry herror
  rw [h entry hentry] at herror
  cases herror

@[simp] theorem beyondGrammar_nil : BeyondGrammar [] :=
  errorless_nil.beyondGrammar

@[simp] theorem beyondGrammar_append {first second : List Diagnostic} :
    BeyondGrammar (first ++ second) ↔ BeyondGrammar first ∧ BeyondGrammar second :=
  List.forall_mem_append

theorem beyondGrammar_of_forall {entries : List Diagnostic}
    (h : ∀ entry ∈ entries, entry.isBeyondGrammar) : BeyondGrammar entries :=
  fun entry hentry _ => h entry hentry

theorem Header.beyondGrammar_remarks {node : Node} (hname : node.hasAttribute "name")
    (hversion : node.hasAttribute "version-number") : BeyondGrammar (Header.remarks node) := by
  obtain ⟨version, hversion⟩ := Option.isSome_iff_exists.1 hversion
  have hversions : versionRemarks node =
      if (Version.parse? version).isSome then [] else [.badVersion node.trail version] := by
    have hattribute : node.attribute? "version-number" = some version := hversion
    rw [versionRemarks, hattribute]
  rw [Header.remarks, if_pos hname, List.nil_append, beyondGrammar_append, hversions]
  refine ⟨?_, (errorless_outputs node).beyondGrammar⟩
  split
  next => exact beyondGrammar_nil
  next => exact beyondGrammar_of_forall (by simp [Diagnostic.isBeyondGrammar])

namespace Lowering

theorem absence_eq_nil {node : Node} {key : String} (h : node.hasAttribute key) :
    absence node key = [] :=
  if_pos h

theorem beyondGrammar_sources (sources : Sources) (node : Node) :
    BeyondGrammar (sources.remarks node) := by
  unfold Sources.remarks
  split
  next => exact beyondGrammar_of_forall (by simp [Diagnostic.isBeyondGrammar])
  next => exact (errorless_ignored sources node).beyondGrammar

theorem beyondGrammar_comparison (node : Node) (allowed : List Condition) :
    BeyondGrammar (comparisonRemarks node allowed) := by
  unfold comparisonRemarks
  split
  next => exact beyondGrammar_nil
  next =>
    split
    next => exact beyondGrammar_nil
    next => exact beyondGrammar_of_forall (by simp [Diagnostic.isBeyondGrammar])

theorem beyondGrammar_set {node : Node} (h : node.hasAttribute "name") :
    BeyondGrammar (setRemarks node) := by
  rw [setRemarks, absence_eq_nil h]
  exact beyondGrammar_sources _ node

theorem beyondGrammar_parameters {node : Node}
    (h : ∀ child ∈ node.children, child.kind = .construct .set ∧ child.hasAttribute "name") :
    BeyondGrammar (parameterRemarks node) := by
  intro entry hentry
  obtain ⟨child, hchild, hentry⟩ := List.mem_flatMap.1 hentry
  obtain ⟨hset, hname⟩ := h child hchild
  -- only a child that sets nothing would be called no parameter
  rw [if_pos hset] at hentry
  exact beyondGrammar_set hname entry hentry

theorem beyondGrammar_constructRemarks {c : Construct} {node : Node}
    (h : ∀ key ∈ (needs c).attributes, node.hasAttribute key)
    (hparameters : takesParameters c → BeyondGrammar (parameterRemarks node)) :
    BeyondGrammar (constructRemarks c node) := by
  have hignored := (errorless_ignored .unreferenced node).beyondGrammar
  have hclear := (errorless_clear node).beyondGrammar
  -- what a construct reads without a source is what it needs, so no absence is left
  cases c <;>
    simp_all [constructRemarks, needs, takesParameters, absence_eq_nil, beyondGrammar_set,
      beyondGrammar_sources, beyondGrammar_comparison]

/-- No construct has both a body and parameters. -/
theorem takesParameters_of_descends {c : Construct} (h : descends c) : takesParameters c = false := by
  cases c with
  | block | forLoop | ifThen | assertion | whileLoop => rfl
  | _ => cases h

theorem beyondGrammar_remarks {node : Node} (h : Fitting node) : BeyondGrammar (remarks node) := by
  cases h with
  | @intro _ c kind attributes looked children =>
    rw [remarks, kind]
    refine beyondGrammar_constructRemarks attributes fun hparameters => ?_
    refine beyondGrammar_parameters fun child hchild => ?_
    have hset : child.kind = .construct .set := by
      rcases looked child hchild with hdescends | ⟨-, hset⟩
      · rw [takesParameters_of_descends hdescends] at hparameters
        cases hparameters
      · exact hset
    cases children child hchild with
    | intro kind attributes =>
      cases hset.symm.trans kind
      exact ⟨hset, attributes "name" (List.mem_singleton.2 rfl)⟩

theorem beyondGrammar_redefinition (labels : SortedMap Nat) (node : Node) :
    BeyondGrammar (redefinition labels node) := by
  unfold redefinition
  split
  next => exact beyondGrammar_nil
  next =>
    split
    next => exact beyondGrammar_of_forall (by simp [Diagnostic.isBeyondGrammar])
    next => exact beyondGrammar_nil

theorem beyondGrammar_remarksAll {labels : SortedMap Nat} {places : List (Nat × Node)}
    (h : ∀ place ∈ places, BeyondGrammar (remarks place.2)) :
    BeyondGrammar (remarksAll labels places) := by
  induction places generalizing labels with
  | nil => exact beyondGrammar_nil
  | cons place places ih =>
    obtain ⟨hplace, hplaces⟩ := List.forall_mem_cons.1 h
    rw [remarksAll, beyondGrammar_append, beyondGrammar_append]
    exact ⟨⟨hplace, beyondGrammar_redefinition labels place.2⟩, ih hplaces⟩

/-- Nodes that fit have no errors but those that the grammar cannot rule out. -/
theorem beyondGrammar_reports {nodes : List Node} (h : ∀ node ∈ nodes, Fitting node)
    (order : LabelOrder) : BeyondGrammar (reports order nodes) := by
  rw [reports, beyondGrammar_append, beyondGrammar_append]
  refine ⟨beyondGrammar_remarksAll fun place hplace => ?_, ?_,
    (errorless_unused _ _ _).beyondGrammar⟩
  · exact beyondGrammar_remarks (fitting_reachedAll h place.2 (snd_mem_reachedAll hplace))
  · intro entry hentry
    obtain ⟨fixup, -, hentry⟩ := List.mem_flatMap.1 hentry
    unfold undefinedRemarks at hentry
    split at hentry
    next => cases hentry
    next =>
      rw [List.mem_singleton.1 hentry]
      exact fun _ => rfl

end Lowering

/-! ## 6. Compiles -/

namespace Compiler

variable {document : Document} {order : LabelOrder} {session : Session}

theorem fitting_of_accepts (haccepts : Grammar.standard.Accepts document) {code : Node}
    (hcode : (Node.ofElement document.root).partsOf .code = [code]) :
    ∀ child ∈ code.children, Fitting child := by
  apply haccepts.code_fitting
  rw [hcode]
  exact List.mem_singleton.2 rfl

/-- The code of an accepted document has no foreign nodes that lowering would reach. -/
theorem isConstruct_of_accepts (haccepts : Grammar.standard.Accepts document) {code : Node}
    (hcode : (Node.ofElement document.root).partsOf .code = [code]) :
    ∀ n ∈ reachedAll code.children, isConstruct n :=
  fun n hn => (fitting_reachedAll (fitting_of_accepts haccepts hcode) n hn).isConstruct

theorem isBeyondGrammar_extraParts {root : Node} {part : Part} {entry : Diagnostic}
    (h : entry ∈ extraParts root part) : entry.isBeyondGrammar := by
  obtain ⟨extra, -, rfl⟩ := List.mem_map.1 h
  rfl

/-- What is reported about a document that the standard grammar accepts. -/
theorem exists_reported (haccepts : Grammar.standard.Accepts document) (order : LabelOrder)
    (session : Session) :
    ∃ entries, (compile ⟨.standard, .standard⟩ document order session).2.diagnostics =
      ({} : Diagnostics).reportAll entries ∧ BeyondGrammar entries := by
  rw [compile_diagnostics]
  rcases assemble_cases .standard document {} with ⟨hviolated, -⟩ |
    ⟨-, ⟨part, hrun⟩ | ⟨errors, warnings, hrun⟩ | ⟨header, code, hheader, hcode⟩⟩
  · exact absurd haccepts hviolated
  · rw [hrun]
    refine ⟨[.aborted (.missingPart part)], rfl, beyondGrammar_of_forall fun entry hentry => ?_⟩
    rw [List.mem_singleton.1 hentry]
    rfl
  · rw [hrun]
    refine ⟨_, rfl, beyondGrammar_of_forall fun entry hentry => ?_⟩
    exact (List.mem_append.1 hentry).elim isBeyondGrammar_extraParts isBeyondGrammar_extraParts
  · have hmem : header ∈ (Node.ofElement document.root).partsOf .header := by
      rw [hheader]
      exact List.mem_singleton.2 rfl
    obtain ⟨hname, hversion⟩ := haccepts.header_attributes hmem
    refine ⟨Header.remarks header ++ reports order code.children, ?_, beyondGrammar_append.2
      ⟨Header.beyondGrammar_remarks hname hversion,
        beyondGrammar_reports (fitting_of_accepts haccepts hcode) order⟩⟩
    rw [assemble_constructs haccepts hheader hcode (isConstruct_of_accepts haccepts hcode)]
    -- whether or not there are errors, the compile does not end with a fault
    simp only
    split
    next => rfl
    next => rfl

theorem diagnostics_of_not_accepts {grammar : Grammar} (h : ¬ grammar.Accepts document)
    (order : LabelOrder) (session : Session) :
    (compile ⟨grammar, .standard⟩ document order session).2.diagnostics =
      ({} : Diagnostics).reportAll (grammar.violationsOf document) := by
  rw [compile_diagnostics]
  rcases assemble_cases grammar document {} with ⟨-, errors, warnings, hrun⟩ | ⟨haccepts, -⟩
  · rw [hrun]
    rfl
  · exact absurd haccepts h

/-- Errors of documents that pass validation are beyond the standard grammar, and those of others are
violations of it. -/
theorem isBeyondGrammar_or_isViolation {entry : Diagnostic}
    (hentry : entry ∈ (compile ⟨.standard, .standard⟩ document order session).2.diagnostics.entries)
    (herror : entry.isError) :
    if (Grammar.standard.validate document {}).1.isSome then entry.isBeyondGrammar
    else entry.isViolation := by
  by_cases haccepts : Grammar.standard.Accepts document
  · obtain ⟨entries, hentries, hbeyond⟩ := exists_reported haccepts order session
    have hvalid : (Grammar.standard.validate document {}).1.isSome := by
      rw [Grammar.validate_of_accepts haccepts]
      rfl
    rw [hentries, Diagnostics.entries_reportAll] at hentry
    rw [if_pos hvalid]
    exact hbeyond entry (by simpa using hentry) herror
  · have hinvalid : ¬ (Grammar.standard.validate document {}).1.isSome := by
      rw [Grammar.validate_of_not_accepts haccepts]
      exact Bool.false_ne_true
    rw [diagnostics_of_not_accepts haccepts, Diagnostics.entries_reportAll] at hentry
    rw [if_neg hinvalid]
    exact Grammar.isViolation_of_mem_violationsOf (by simpa using hentry)

/-- The standard grammar and lowering agree. No compile is ended by a fault but for a missing part.
A document that passes validation has no errors but those that the grammar cannot rule out, and any
other document none but violations; nothing is reported that the grammar rules out. In the code of a
document that is compiled, every node at any depth is a construct that lowering reaches, or it sets a
parameter of a call that lowering reaches. -/
theorem standard_grammar_agrees (document : Document) (order : LabelOrder) (session : Session) :
    let run := compile ⟨.standard, .standard⟩ document order session
    (∀ fault, run.1 = .error (.fatal fault) → ∃ part, fault = .missingPart part) ∧
      (∀ entry ∈ run.2.diagnostics.entries, entry.isError →
        if (Grammar.standard.validate document {}).1.isSome then entry.isBeyondGrammar
        else entry.isViolation) ∧
      (∀ entry ∈ run.2.diagnostics.entries, entry.isRuledOut = false) ∧
      ∀ executable, run.1 = .ok executable →
        ∃ code, (Node.ofElement document.root).partsOf .code = [code] ∧
          ∀ node, code.Below node → isConstruct node ∧
            (node ∈ reachedAll code.children ∨
              node.kind = .construct .set ∧ ∃ call ∈ reachedAll code.children, ∃ c,
                call.kind = .construct c ∧ takesParameters c ∧ node ∈ call.children) := by
  intro run
  refine ⟨fun fault hfault => ?_, fun entry hentry herror => ?_, fun entry hentry => ?_,
    fun executable hok => ?_⟩
  · obtain ⟨haccepts, hmissing | ⟨code, stop, hcode, hstop, -⟩⟩ := compile_fatal hfault
    · exact hmissing
    · rw [foreign?_eq_none.2 (isConstruct_of_accepts haccepts hcode)] at hstop
      cases hstop
  · exact isBeyondGrammar_or_isViolation hentry herror
  · rw [← Bool.not_eq_true]
    intro hruled
    obtain ⟨herror, hbeyond, hviolation⟩ := Diagnostic.isError_of_isRuledOut hruled
    have hkind := isBeyondGrammar_or_isViolation hentry herror
    rw [hbeyond, hviolation, ite_self] at hkind
    cases hkind
  · obtain ⟨header, code, hscript, -⟩ := compile_ok_iff.1 hok
    refine ⟨code, hscript.one_code, fun node hbelow => ?_⟩
    obtain ⟨hfitting, hplace⟩ :=
      Fitting.reached_or_parameter (fitting_of_accepts hscript.accepts hscript.one_code) hbelow
    exact ⟨hfitting.isConstruct, hplace⟩

/-- A script that conforms to the standard grammar and has an error of each kind in its header and its
code. -/
def faultyScript : Document where
  root := {
    tag := "script"
    children := [
      { tag := "header", attributes := .ofList [("name", "faulty"), ("version-number", "one")] },
      { tag := "code"
        children := [
          { tag := "call"
            attributes := .ofList [("name", "print")]
            children := [{ tag := "set", attributes := .ofList [("name", "text")] }] },
          { tag := "if"
            attributes := .ofList [("item", "i"), ("value", "10"), ("type", "done")]
            children := [{ tag := "goto", attributes := .ofList [("label", "end")] }] },
          { tag := "label", attributes := .ofList [("name", "top")] },
          { tag := "goto", attributes := .ofList [("label", "top")] },
          { tag := "label", attributes := .ofList [("name", "top")] }] }] }

theorem faultyScript_grammar_agrees :
    let run := compile ⟨.standard, .standard⟩ faultyScript .byName {}
    (Grammar.standard.validate faultyScript {}).1.isSome ∧ run.2.diagnostics.errors = 5 ∧
      (∀ entry ∈ run.2.diagnostics.entries, entry.isError → entry.isBeyondGrammar) ∧
      ∃ header, (compile ⟨.standard, .standard⟩ gotoLoop .byName {}).1 = .ok ⟨header, gotoLoopCode⟩ ∧
        ∃ code, (Node.ofElement gotoLoop.root).partsOf .code = [code] ∧
          ∀ node, code.Below node → isConstruct node := by
  intro run
  have hvalid : (Grammar.standard.validate faultyScript {}).1.isSome := by decide +kernel
  obtain ⟨-, herrors, -⟩ := standard_grammar_agrees faultyScript .byName {}
  obtain ⟨header, hrun⟩ := compile_gotoLoop
  obtain ⟨-, -, -, hcode⟩ := standard_grammar_agrees gotoLoop .byName {}
  obtain ⟨code, hpart, hbelow⟩ := hcode _ hrun
  refine ⟨hvalid, by decide +kernel, fun entry hentry herror => ?_, header, hrun, code, hpart,
    fun node hnode => (hbelow node hnode).1⟩
  have hkind := herrors entry hentry herror
  rwa [if_pos hvalid] at hkind

end Compiler

end TreeScript
