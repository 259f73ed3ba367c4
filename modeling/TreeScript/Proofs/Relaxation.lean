import TreeScript.Proofs.LabelOrders

/-!
# Relaxed grammars

A grammar is relaxed by accepting more attributes, children or texts, by requiring fewer attributes and
by declaring more elements. What conformed to it before conforms to it still, and behind validation no
stage of a compile asks for the grammar, so a program that was accepted compiles as before.
-/

namespace TreeScript

/-! ## 1. Relaxed rules -/

/-- Whatever one rule permits, the other one permits. -/
structure Rule.RelaxedTo (rule looser : Rule) : Prop where
  attributes : ∀ key ∈ rule.attributes.keys, looser.attributes.contains key
  required : ∀ key ∈ looser.required.keys, rule.required.contains key
  children : ∀ tag ∈ rule.children.keys, looser.children.contains tag
  text : rule.text → looser.text

namespace Grammar

/-- The root is the same, and each element that was declared has a rule that is as loose as its own. -/
structure RelaxedTo (grammar looser : Grammar) : Prop where
  root : looser.root = grammar.root
  rules : ∀ tag rule, grammar.rule? tag = some rule →
    ∃ rule', looser.rule? tag = some rule' ∧ rule.RelaxedTo rule'

end Grammar

theorem Rule.Permits.relax {rule looser : Rule} (h : rule.RelaxedTo looser) {element : Element}
    (hpermits : rule.Permits element) : looser.Permits element where
  accepted key hkey := h.attributes key (SortedMap.mem_keys.2 (hpermits.accepted key hkey))
  required key hkey := hpermits.required key (SortedMap.mem_keys.2 (h.required key hkey))
  blank htext := by
    apply hpermits.blank
    -- text that the looser rule forbids is not allowed by the stricter one either
    cases hstrict : rule.text with
    | false => rfl
    | true => rw [h.text hstrict] at htext; cases htext

namespace Grammar

variable {grammar looser : Grammar}

/-! ## 2. Documents -/

theorem Conforms.relax (h : grammar.RelaxedTo looser) {element : Element}
    (hconforms : grammar.Conforms element) : looser.Conforms element := by
  induction hconforms with
  | @intro element rule declared permits tags children ih =>
    obtain ⟨rule', hdeclared, hrule⟩ := h.rules element.tag rule declared
    refine .intro hdeclared (permits.relax hrule) (fun child hchild => ?_) ih
    exact hrule.children child.tag (SortedMap.mem_keys.2 (tags child hchild))

theorem Accepts.relax (h : grammar.RelaxedTo looser) {document : Document}
    (haccepts : grammar.Accepts document) : looser.Accepts document :=
  ⟨haccepts.root.trans h.root.symm, haccepts.conforms.relax h⟩

/-- A document whose nodes are handed out is accepted, whatever was reported before. -/
theorem accepts_of_validate {document : Document} {d : Diagnostics} {node : Node}
    (h : (grammar.validate document d).1 = some node) :
    grammar.Accepts document ∧ node = Node.ofElement document.root := by
  by_cases haccepts : grammar.Accepts document
  · rw [validate_of_accepts haccepts] at h
    exact ⟨haccepts, (Option.some.inj h).symm⟩
  · rw [validate_of_not_accepts haccepts] at h
    cases h

end Grammar

/-! ## 3. Compiles -/

namespace Compiler

open Lowering (LabelOrder Strategy)
open Stoppable (Matches)

variable {grammar looser : Grammar} {document : Document}

/-- Grammars that accept a document give the same compile of it. -/
theorem assemble_congr (h : grammar.Accepts document) (h' : looser.Accepts document)
    (strategy : Strategy) (order : LabelOrder) (d : Diagnostics) :
    (assemble ⟨looser, strategy⟩ document order).run d =
      (assemble ⟨grammar, strategy⟩ document order).run d := by
  simp only [assemble, Stoppable.run_bind, Stoppable.run_liftM, Grammar.validate_of_accepts h,
    Grammar.validate_of_accepts h']

/-- Relaxing a grammar changes nothing about a document that was accepted: its tree, and the result,
the stage and the diagnostics of its compile. If the two compiles find the labels in different orders,
that shows in the order of reports on labels at one address only. -/
theorem compile_relaxed (hrelaxed : grammar.RelaxedTo looser) {d : Diagnostics} {node : Node}
    (haccepted : (grammar.validate document d).1 = some node) :
    (∀ d', looser.validate document d' = (some node, d')) ∧
      ∀ strategy : Strategy,
        (∀ order session, compile ⟨looser, strategy⟩ document order session =
          compile ⟨grammar, strategy⟩ document order session) ∧
        (strategy.Steady → ∀ order order' session session',
          Matches Session.Alike (compile ⟨looser, strategy⟩ document order session)
            (compile ⟨grammar, strategy⟩ document order' session')) := by
  obtain ⟨haccepts, rfl⟩ := Grammar.accepts_of_validate haccepted
  have haccepts' : looser.Accepts document := haccepts.relax hrelaxed
  have hsame : ∀ strategy order session, compile ⟨looser, strategy⟩ document order session =
      compile ⟨grammar, strategy⟩ document order session := by
    intro strategy order session
    rw [compile_apply, compile_apply, assemble_congr haccepts haccepts']
  refine ⟨fun d' => Grammar.validate_of_accepts haccepts' d', fun strategy => ⟨hsame strategy, ?_⟩⟩
  intro hsteady order order' session session'
  rw [hsame]
  exact compile_alike hsteady grammar document order order' session session'

/-- The rule with an attribute and a child more, with text, and with nothing required. -/
def loosened (rule : Rule) : Rule where
  attributes := rule.attributes.insert "comment" ()
  children := rule.children.insert "pause" ()
  text := true

/-- The standard grammar with loosened rules and a new element. -/
def lenient : Grammar where
  id := "lenient-1.0"
  root := "script"
  rules := .ofList (("pause", {}) ::
    Grammar.standardRules.map fun entry => (entry.1, loosened entry.2))

theorem standard_relaxedTo_lenient : Grammar.standard.RelaxedTo lenient := by
  refine ⟨rfl, fun tag rule hrule => ?_⟩
  have hmem : (tag, rule) ∈ Grammar.standardRules := SortedMap.mem_of_get?_ofList hrule
  have hall : ∀ entry ∈ Grammar.standardRules, ∃ rule' ∈ lenient.rule? entry.1,
      (∀ key ∈ entry.2.attributes.keys, rule'.attributes.contains key) ∧
      (∀ key ∈ rule'.required.keys, entry.2.required.contains key) ∧
      (∀ child ∈ entry.2.children.keys, rule'.children.contains child) ∧
      (entry.2.text → rule'.text) := by
    decide +kernel
  obtain ⟨rule', hrule', hattributes, hrequired, hchildren, htext⟩ := hall _ hmem
  exact ⟨rule', hrule', hattributes, hrequired, hchildren, htext⟩

theorem twins_relaxed :
    Grammar.standard.RelaxedTo lenient ∧
      ∃ node, (Grammar.standard.validate twins {}).1 = some node ∧
        lenient.validate twins {} = (some node, {}) ∧
        compile ⟨lenient, .standard⟩ twins .byName {} =
          compile ⟨.standard, .standard⟩ twins .byName {} ∧
        Matches Session.Alike (compile ⟨lenient, .standard⟩ twins .fromLast {})
          (compile ⟨.standard, .standard⟩ twins .byName {}) := by
  obtain ⟨node, hnode⟩ := Option.isSome_iff_exists.1
    (by decide +kernel : (Grammar.standard.validate twins {}).1.isSome)
  obtain ⟨hvalidate, hcompile⟩ := compile_relaxed standard_relaxedTo_lenient hnode
  obtain ⟨hsame, halike⟩ := hcompile .standard
  exact ⟨standard_relaxedTo_lenient, node, hnode, hvalidate {}, hsame .byName {},
    halike Strategy.standard_steady .fromLast .byName {} {}⟩

end Compiler

end TreeScript
