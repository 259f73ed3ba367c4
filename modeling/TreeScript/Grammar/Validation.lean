import TreeScript.Diagnostics
import TreeScript.Grammar.Basic
import TreeScript.Text.Blank

/-!
# Validation

`Grammar.validate` checks a document against a grammar. Every violation is reported, and a tree of
nodes is handed out only if there is none.
-/

namespace TreeScript.Grammar

open Reporting (report)

/-- The violations of a rule by an element itself: its attributes, its text and the tags of its
children. -/
def ruleViolations (grammar : Grammar) (rule : Rule) (trail : Trail) (element : Element) :
    List Diagnostic :=
  let unaccepted := element.attributes.keys.filter fun key => !rule.attributes.contains key
  let missing := rule.required.keys.filter fun key => !element.attributes.contains key
  let hasText := (element.text.map fun text => Text.trim text != "").getD false
  -- a child without a rule is reported where it is checked itself
  let misplaced := element.children.filter fun child =>
    grammar.declares child.tag && !rule.children.contains child.tag
  unaccepted.map (.attributeNotAllowed trail · element.tag) ++
    missing.map (.attributeRequired trail element.tag ·) ++
    (if !rule.text && hasText then [.textNotAllowed trail element.tag] else []) ++
    misplaced.map (.childNotAllowed trail ·.tag element.tag)

def violations (grammar : Grammar) (trail : Trail) (element : Element) : List Diagnostic :=
  match grammar.rule? element.tag with
  | some rule => grammar.ruleViolations rule trail element
  | none => [.unknownElement trail element.tag]

mutual

/-- Checks an element and then its children, and gives its node. -/
def validateElement (grammar : Grammar) (trail : Trail) : Element → Reporting Node
  | ⟨tag, attributes, children, text⟩ => do
    (grammar.violations trail ⟨tag, attributes, children, text⟩).forM report
    let nodes ← validateChildren grammar trail 0 children
    return ⟨Kind.ofTag tag, tag, attributes, nodes, text, trail⟩

def validateChildren (grammar : Grammar) (trail : Trail) (index : Nat) :
    List Element → Reporting (List Node)
  | [] => return []
  | element :: elements => do
    let node ← validateElement grammar (trail.child element.tag index) element
    let nodes ← validateChildren grammar trail (index + 1) elements
    return node :: nodes

end

/-- The nodes of a document, if it conforms to the grammar. -/
def validate (grammar : Grammar) (document : Document) : Reporting (Option Node) := do
  -- errors that were reported before do not count
  let before := (← get).errors
  if document.root.tag ≠ grammar.root then
    report (.wrongRoot grammar.root document.root.tag)
  let node ← validateElement grammar ⟨document.root.tag, []⟩ document.root
  return if (← get).errors = before then some node else none

end TreeScript.Grammar
