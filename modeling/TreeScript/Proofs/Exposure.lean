import TreeScript.Proofs.Concatenation
import TreeScript.Proofs.StandardGrammar

/-!
# Elements that no compile passes over

A grammar may accept elements that have no meaning here. Lowering looks at the code, at the bodies
of constructs and at the parameters of calls, and whatever stands there has to be a construct. Below
a construct that has neither a body nor parameters it does not look, so what a grammar accepts there
is neither lowered nor reported.
-/

namespace TreeScript

open Lowering

/-! ## 1. Exposed nodes -/

/-- The constructs that have neither a body nor parameters. -/
def Construct.isLeaf : Construct → Bool
  | .set | .input | .buffer | .math | .goto | .label | .ret => true
  | .block | .forLoop | .ifThen | .assertion | .whileLoop => false
  | .call | .exec | .subroutine | .memberCall => false

theorem Construct.descends_or_takesParameters {c : Construct} (h : c.isLeaf = false) :
    descends c ∨ takesParameters c := by
  revert h
  cases c <;> decide

/-- The nodes in a node, at any depth, that lie below no leaf. -/
inductive Node.Exposed (root : Node) : Node → Prop where
  | child {node : Node} (h : node ∈ root.children) : Exposed root node
  | deeper {parent node : Node} (hparent : Exposed root parent)
    (hleaf : ∀ c, parent.kind = .construct c → c.isLeaf = false) (h : node ∈ parent.children) :
    Exposed root node

/-- In well-formed code every exposed node is a construct. -/
theorem isConstruct_of_exposed {code node : Node}
    (hcode : WellFormed code.children) (h : code.Exposed node) : isConstruct node := by
  -- an exposed node is reached, or it is a parameter, which is a leaf
  suffices hplace : node ∈ reachedAll code.children ∨ node.kind = .construct .set by
    rcases hplace with hreached | hset
    · exact hcode.isConstruct node hreached
    · exact isConstruct_iff.2 ⟨.set, hset⟩
  induction h with
  | child h => exact .inl (mem_reachedAll_of_mem h)
  | @deeper parent node _ hleaf h ih =>
    rcases ih with hreached | hset
    · obtain ⟨c, hkind, hcomplete⟩ := hcode.complete parent hreached
      rcases Construct.descends_or_takesParameters (hleaf c hkind) with hdescends | hparameters
      · refine .inl (body_reached hreached ?_)
        rwa [body_of_descends hkind hdescends]
      · exact .inr (hcomplete.2 hparameters node h).1
    · cases hleaf .set hset

namespace Compiler

/-- In the code of a document that is compiled, every element that lies below no leaf is a
construct: any other element there makes the compile fail, whatever the grammar accepts. -/
theorem compile_exposes_constructs {grammar : Grammar} {document : Document} {order : LabelOrder}
    {session : Session} {executable : Executable}
    (h : (compile ⟨grammar, .standard⟩ document order session).1 = .ok executable) :
    ∃ code, (Node.ofElement document.root).partsOf .code = [code] ∧
      ∀ node, code.Exposed node → isConstruct node := by
  obtain ⟨header, code, hscript, -⟩ := compile_ok_iff.1 h
  exact ⟨code, hscript.one_code, fun node hnode => isConstruct_of_exposed hscript.wellFormed hnode⟩

/-- A grammar that accepts a pause in the place of a statement and below a variable that is set. -/
def pauseGrammar : Grammar where
  id := "pause-1"
  root := "script"
  rules := .ofList
    [ ("script", Grammar.ruleOf [] [] ["header", "code"] false),
      ("header", Grammar.ruleOf ["name", "version-number"] ["name"] [] false),
      ("code", Grammar.ruleOf [] [] ["block", "pause", "set"] false),
      ("block", Grammar.ruleOf [] [] ["call", "pause"] false),
      ("call", Grammar.ruleOf ["name"] ["name"] ["pause", "set"] false),
      ("set", Grammar.ruleOf ["name", "value"] ["name"] ["pause"] false),
      ("pause", Grammar.ruleOf ["seconds"] [] [] false) ]

/-- A script with a pause below a variable that is set. -/
def hiddenPause : Document where
  root := {
    tag := "script"
    children := [
      { tag := "header", attributes := .ofList [("name", "hidden"), ("version-number", "1.0")] },
      { tag := "code"
        children := [
          { tag := "set"
            attributes := .ofList [("name", "x"), ("value", "1")]
            children := [{ tag := "pause", attributes := .ofList [("seconds", "2")] }] },
          { tag := "block"
            children := [
              { tag := "call"
                attributes := .ofList [("name", "f")]
                children := [
                  { tag := "set"
                    attributes := .ofList [("name", "a"), ("value", "2")] }] }] }] }] }

/-- The script without its pause, compiled. -/
def hiddenPauseExecutable : Executable where
  header := { name := "hidden", version := ⟨1, 0⟩ }
  code := #[
    .loadLiteral "1", .store "x", .scopeEnter, .scopeEnter, .loadLiteral "2", .store "a", .call "f",
    .scopeExit, .scopeExit, .nop]

theorem compile_hiddenPause :
    (compile ⟨pauseGrammar, .standard⟩ hiddenPause .byName {}).1 = .ok hiddenPauseExecutable :=
  Fallible.eq_ok_of_toOption (by decide +kernel)

/-- A pause below a variable that is set has no lowering, and yet the compile succeeds. -/
theorem hiddenPause_passed_over :
    (compile ⟨pauseGrammar, .standard⟩ hiddenPause .byName {}).1 = .ok hiddenPauseExecutable ∧
      ∃ code, (Node.ofElement hiddenPause.root).partsOf .code = [code] ∧
        ∃ node, code.Below node ∧ node.kind = .foreign "pause" := by
  refine ⟨compile_hiddenPause, ?_⟩
  refine ⟨_, rfl, _, .deeper (.child List.mem_cons_self) List.mem_cons_self, ?_⟩
  decide +kernel

theorem hiddenPause_exposes_constructs :
    (compile ⟨pauseGrammar, .standard⟩ hiddenPause .byName {}).1 = .ok hiddenPauseExecutable ∧
      ∃ code, (Node.ofElement hiddenPause.root).partsOf .code = [code] ∧
        ∀ node, code.Exposed node → isConstruct node :=
  ⟨compile_hiddenPause, compile_exposes_constructs compile_hiddenPause⟩

end Compiler

end TreeScript
