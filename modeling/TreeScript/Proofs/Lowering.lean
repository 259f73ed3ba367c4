import TreeScript.Proofs.Emission
import TreeScript.Proofs.Targets

/-!
# Lowering is translation

Lowering emits a pending jump, lowers the body, and patches the jump by its address afterwards. The
code it leaves behind is the one that `translate` writes down at once, and what it notes is what
`State.advance` says. This holds from every state, since neither the code nor the patches of a body
reach the instructions before it.

At a foreign node lowering stops. What it leaves behind then is `emitted`: the code up to that node,
with the jumps of the constructs around it pending and their scopes left.
-/

namespace TreeScript.Lowering

/-! ## 1. Scopes and patches -/

/-- A scope stands around a body, whether or not the body stops. -/
theorem inScope_run (body : Lower Unit) (s : State) :
    (inScope body).run s =
      let (result, s') := body.run (s.extend [.scopeEnter] [])
      (result, s'.extend [.scopeExit] []) := by
  unfold inScope
  simp only [Stoppable.run_bind, Stoppable.run_liftM, Stoppable.run_lift, emit_apply]
  rcases body.run (s.extend [.scopeEnter] []) with ⟨fault | ⟨⟩, s'⟩
  · rfl
  · rfl

theorem patch_run (address target : Nat) (s : State) :
    (patch address target).run s =
      match s.patch address target with
      | .ok s' => (.ok (), s')
      | .error fault => (.error fault, s) := by
  change (match s.patch address target with | .ok s' => _ | .error fault => _ : Lower Unit).run s = _
  cases s.patch address target <;> rfl

/-- Patching sets the target of a pending instruction and touches no other one. -/
theorem patch_advance (s : State) (places : List (Nat × Node)) (before after : List Instruction)
    {instruction : Instruction} (hpatchable : instruction.isPatchable)
    (hpending : instruction.target? = none) (target : Nat) :
    (patch (s.code.size + before.length) target).run
        (s.advance places (before ++ instruction :: after)) =
      (.ok (), s.advance places (before ++ instruction.withTarget target :: after)) := by
  have hat : (s.advance places (before ++ instruction :: after)).code[s.code.size + before.length]? =
      some instruction := by
    simp [State.advance]
  -- the address lies behind the code that was there, so that code is not written to
  have hset : (s.code ++ (before ++ instruction :: after).toArray).setIfInBounds
      (s.code.size + before.length) (instruction.withTarget target) =
      s.code ++ (before ++ instruction.withTarget target :: after).toArray := by
    apply Array.toList_inj.mp
    simp
  rw [patch_run, State.patch, hat]
  simp only [hpatchable, hpending, Bool.not_true, Bool.false_eq_true, if_false, Option.isSome_none]
  simp only [State.advance, hset]

/-! ## 2. Constructs with a body -/

/-- A computation that, from whichever state, does not stop, and leaves behind nodes at their places
and their code. -/
def Lowers (x : Lower Unit) (places : Nat → List (Nat × Node)) (code : Nat → List Instruction) :
    Prop :=
  ∀ s : State, x.run s = (.ok (), s.advance (places s.code.size) (code s.code.size))

/-- A computation that, from whichever state, ends with a result, and leaves behind nodes at their
places and their code. -/
def Ends (x : Lower Unit) (result : Except Fault Unit) (places : Nat → List (Nat × Node))
    (code : Nat → List Instruction) : Prop :=
  ∀ s : State, x.run s = (result, s.advance (places s.code.size) (code s.code.size))

section Bodies

variable {node : Node} {body : Lower Unit} {places : Nat → List (Nat × Node)}
  {code : Nat → List Instruction}

/-- The scope of a node, behind what the node emits and remarks itself. -/
theorem Ends.scoped {result : Except Fault Unit} (h : Ends body result places code)
    (hlabel : node.kind ≠ .construct .label) (hgoto : node.kind ≠ .construct .goto) (s : State)
    (before : List Instruction) :
    (inScope body).run (s.extend before (remarks node)) =
      (result, s.advance ((s.code.size, node) :: places (s.code.size + before.length + 1))
        (before ++ .scopeEnter :: code (s.code.size + before.length + 1) ++ [.scopeExit])) := by
  rw [inScope_run, State.extend_eq_advance s s.code.size before hlabel hgoto, State.advance_extend, h,
    State.size_advance]
  simp only [State.advance_advance, State.advance_extend, List.length_append, List.length_singleton,
    List.append_assoc, List.cons_append, List.nil_append, Nat.add_assoc]

theorem Lowers.ends (h : Lowers body places code) : Ends body (.ok ()) places code := h

theorem block_lowers (hkind : node.kind = .construct .block) (h : Lowers body places code)
    (length : Nat) :
    Lowers (inScope body) (fun base => (base, node) :: places (base + 1))
      (fun base => (scheme .block node base length).opening ++ code (base + 1) ++
        (scheme .block node base length).closing) := by
  intro s
  have hremarks : remarks node = [] := by
    rw [remarks, hkind]
    rfl
  have hscope : (inScope body).run (s.extend [] (remarks node)) = _ :=
    h.ends.scoped (by simp [hkind]) (by simp [hkind]) s []
  rw [hremarks, State.extend_nil] at hscope
  exact hscope

/-- An `if` up to its scope, and what it does behind the scope. -/
theorem lowerIf_run (hkind : node.kind = .construct .ifThen) (body : Lower Unit) (s : State) :
    (lowerIf node body).run s =
      (do
        inScope body
        let landing ← address
        emit .nop
        patch (s.code.size + 4) landing : Lower Unit).run
      (s.extend [Sources.general.instruction node, .moveRight, .fetch (operand node "item"),
        .arith "-", .condJump (comparison node ifConditions) none] (remarks node)) := by
  have hremarks : remarks node = absence node "item" ++ Sources.general.remarks node ++
      comparisonRemarks node [.equal, .less, .greater, .not] := by
    rw [remarks, hkind]
    rfl
  unfold lowerIf
  simp only [Stoppable.run_bind, Stoppable.run_liftM, expected_apply, emitSource_apply, emit_apply,
    conditionOf_apply, address_apply, State.extend_extend, State.size_extend, List.nil_append,
    List.append_nil, List.cons_append, List.length_cons, List.length_nil, hremarks]
  rfl

theorem lowerIf_lowers (hkind : node.kind = .construct .ifThen) (h : Lowers body places code)
    {length : Nat} (hlength : ∀ base, (code base).length = length) :
    Lowers (lowerIf node body) (fun base => (base, node) :: places (base + 6))
      (fun base => (scheme .ifThen node base length).opening ++ code (base + 6) ++
        (scheme .ifThen node base length).closing) := by
  intro s
  rw [lowerIf_run hkind, Stoppable.run_bind, h.ends.scoped (by simp [hkind]) (by simp [hkind])]
  simp only [Stoppable.run_bind, Stoppable.run_liftM, emit_apply, address_apply, State.advance_extend,
    State.size_advance, List.append_assoc, List.cons_append, List.nil_append, List.length_append,
    List.length_cons, List.length_nil, hlength]
  rw [show s.code.size + (length + (0 + 1) + 1 + 1 + 1 + 1 + 1 + 1) = s.code.size + length + 7 by
    omega]
  exact patch_advance s _ [_, _, _, _] _ rfl rfl _

/-- A loop with a test up to its scope, and what it does behind the scope. -/
theorem lowerWhile_run (hkind : node.kind = .construct .whileLoop) (body : Lower Unit) (s : State) :
    (lowerWhile node body).run s =
      (do
        inScope body
        emit (.jump s.code.size)
        patch (s.code.size + 4) (← address) : Lower Unit).run
      (s.extend [Sources.general.instruction node, .moveRight, .fetch (operand node "name"),
        .arith "==", .condJump .equal none] (remarks node)) := by
  have hremarks : remarks node = absence node "name" ++ Sources.general.remarks node := by
    rw [remarks, hkind]
    rfl
  unfold lowerWhile
  simp only [Stoppable.run_bind, Stoppable.run_liftM, expected_apply, emitSource_apply, emit_apply,
    address_apply, State.extend_extend, State.size_extend, List.nil_append, List.append_nil,
    List.cons_append, List.length_cons, List.length_nil, Nat.add_zero, hremarks]

theorem lowerWhile_lowers (hkind : node.kind = .construct .whileLoop) (h : Lowers body places code)
    {length : Nat} (hlength : ∀ base, (code base).length = length) :
    Lowers (lowerWhile node body) (fun base => (base, node) :: places (base + 6))
      (fun base => (scheme .whileLoop node base length).opening ++ code (base + 6) ++
        (scheme .whileLoop node base length).closing) := by
  intro s
  rw [lowerWhile_run hkind, Stoppable.run_bind, h.ends.scoped (by simp [hkind]) (by simp [hkind])]
  simp only [Stoppable.run_bind, Stoppable.run_liftM, emit_apply, address_apply, State.advance_extend,
    State.size_advance, List.append_assoc, List.cons_append, List.nil_append, List.length_append,
    List.length_cons, List.length_nil, hlength]
  rw [show s.code.size + (length + (0 + 1 + 1) + 1 + 1 + 1 + 1 + 1 + 1) = s.code.size + length + 8 by
    omega]
  exact patch_advance s _ [_, _, _, _] _ rfl rfl _

/-- A loop with a count up to its scope, and what it does behind the scope. -/
theorem lowerFor_run (hkind : node.kind = .construct .forLoop) (body : Lower Unit) (s : State) :
    (lowerFor node body).run s =
      (do
        inScope body
        emit (.loadLiteral "1")
        emit .moveRight
        emit (.fetch (operand node "name"))
        emit (.arith "-")
        emit (.store (operand node "name"))
        emit (.jump (s.code.size + 2))
        patch (s.code.size + 2) (← address) : Lower Unit).run
      (s.extend [Sources.count.instruction node, .declareNew (operand node "name"),
        .condJump .done none] (remarks node)) := by
  have hremarks : remarks node = absence node "name" ++ Sources.count.remarks node := by
    rw [remarks, hkind]
    rfl
  unfold lowerFor
  simp only [Stoppable.run_bind, Stoppable.run_liftM, expected_apply, emitSource_apply, emit_apply,
    address_apply, State.extend_extend, State.size_extend, List.nil_append, List.append_nil,
    List.cons_append, List.length_cons, List.length_nil, hremarks]

theorem lowerFor_lowers (hkind : node.kind = .construct .forLoop) (h : Lowers body places code)
    {length : Nat} (hlength : ∀ base, (code base).length = length) :
    Lowers (lowerFor node body) (fun base => (base, node) :: places (base + 4))
      (fun base => (scheme .forLoop node base length).opening ++ code (base + 4) ++
        (scheme .forLoop node base length).closing) := by
  intro s
  rw [lowerFor_run hkind, Stoppable.run_bind, h.ends.scoped (by simp [hkind]) (by simp [hkind])]
  simp only [Stoppable.run_bind, Stoppable.run_liftM, emit_apply, address_apply, State.advance_extend,
    State.size_advance, List.append_assoc, List.cons_append, List.nil_append, List.length_append,
    List.length_cons, List.length_nil, hlength]
  rw [show s.code.size + (length + (0 + 1 + 1 + 1 + 1 + 1 + 1 + 1) + 1 + 1 + 1 + 1) =
    s.code.size + length + 11 by omega]
  exact patch_advance s _ [_, _] _ rfl rfl _

/-- An assertion up to its scope, and what it does behind the scope. -/
theorem lowerAssertion_run (hkind : node.kind = .construct .assertion) (body : Lower Unit)
    (s : State) :
    (lowerAssertion node body).run s =
      (do
        inScope body
        let landing ← address
        emit .nop
        patch (s.code.size + 1) landing : Lower Unit).run
      (s.extend [.fetch (operand node "item"), .assert (comparison node assertConditions) none]
        (remarks node)) := by
  have hremarks : remarks node = absence node "item" ++ comparisonRemarks node [.equal, .not] := by
    rw [remarks, hkind]
    rfl
  unfold lowerAssertion
  simp only [Stoppable.run_bind, Stoppable.run_liftM, expected_apply, emit_apply, conditionOf_apply,
    address_apply, State.extend_extend, State.size_extend, List.nil_append, List.append_nil,
    List.cons_append, List.length_cons, List.length_nil, hremarks]
  rfl

theorem lowerAssertion_lowers (hkind : node.kind = .construct .assertion)
    (h : Lowers body places code) {length : Nat} (hlength : ∀ base, (code base).length = length) :
    Lowers (lowerAssertion node body) (fun base => (base, node) :: places (base + 3))
      (fun base => (scheme .assertion node base length).opening ++ code (base + 3) ++
        (scheme .assertion node base length).closing) := by
  intro s
  rw [lowerAssertion_run hkind, Stoppable.run_bind,
    h.ends.scoped (by simp [hkind]) (by simp [hkind])]
  simp only [Stoppable.run_bind, Stoppable.run_liftM, emit_apply, address_apply, State.advance_extend,
    State.size_advance, List.append_assoc, List.cons_append, List.nil_append, List.length_append,
    List.length_cons, List.length_nil, hlength]
  rw [show s.code.size + (length + (0 + 1) + 1 + 1 + 1) = s.code.size + length + 4 by omega]
  exact patch_advance s _ [_] _ rfl rfl _

end Bodies

/-! ## 3. Calls -/

section Calls

variable {node : Node}

/-- Parameters and dispatch of a call in a scope, then the store of its result. -/
theorem call_run (dispatch : List Instruction) (entries : List Diagnostic) (s : State)
    {bind : Lower Unit}
    (hbind : ∀ s : State,
      bind.run s = (.ok (), s.extend (parameterCode node ++ dispatch) (parameterRemarks node))) :
    (do inScope bind; storeResult node : Lower Unit).run (s.extend [] entries) =
      (.ok (), s.extend (callCode node dispatch) (entries ++ parameterRemarks node)) := by
  simp only [Stoppable.run_bind, inScope_run, hbind, Stoppable.run_liftM, storeResult_apply,
    State.extend_extend, callCode, List.append_assoc, List.append_nil, List.nil_append,
    List.cons_append]

theorem lowerCall_run (dispatch : String → Instruction) (s : State) :
    (lowerCall node dispatch).run s =
      (.ok (), s.extend (callCode node [dispatch (operand node "name")])
        (absence node "name" ++ parameterRemarks node)) := by
  unfold lowerCall
  rw [Stoppable.run_bind]
  simp only [Stoppable.run_liftM, expected_apply]
  refine call_run _ _ s (fun s => ?_)
  simp only [Stoppable.run_bind, Stoppable.run_liftM, lowerParameters_apply, emit_apply,
    State.extend_extend, List.append_nil]

theorem lowerMemberCall_run (s : State) :
    (lowerMemberCall node).run s =
      (.ok (), s.extend
        (callCode node [.eval (operand node "name"), .memberCall (operand node "method")])
        (absence node "name" ++ absence node "method" ++ parameterRemarks node)) := by
  unfold lowerMemberCall
  rw [Stoppable.run_bind]
  simp only [Stoppable.run_liftM, expected_apply]
  rw [Stoppable.run_bind]
  simp only [Stoppable.run_liftM, expected_apply, State.extend_extend, List.nil_append]
  refine call_run _ _ s (fun s => ?_)
  simp only [Stoppable.run_bind, Stoppable.run_liftM, lowerParameters_apply, emit_apply,
    State.extend_extend, List.append_nil, List.append_assoc, List.cons_append, List.nil_append]

end Calls

/-! ## 4. Trees without foreign nodes -/

theorem lower_construct {node : Node} {c : Construct} (hkind : node.kind = .construct c) :
    lower node = lowerConstruct c node (lowerAll node.children) := by
  obtain ⟨kind, tag, attributes, children, text, trail⟩ := node
  subst hkind
  rw [lower]

theorem lower_foreign {node : Node} (hforeign : isConstruct node = false) :
    lower node = throw (.unsupported node.tag node.trail) := by
  obtain ⟨_ | _ | _, tag, attributes, children, text, trail⟩ := node
  · cases hforeign
  · rw [lower]
    intro c h
    cases h
  · rw [lower]
    intro c h
    cases h

theorem body_of_descends {node : Node} {c : Construct} (hkind : node.kind = .construct c)
    (h : descends c) : body node = node.children := by
  rw [body, hkind]
  exact if_pos h

theorem body_of_not_descends {node : Node} {c : Construct} (hkind : node.kind = .construct c)
    (h : descends c = false) : body node = [] := by
  rw [body, hkind]
  exact if_neg (by rw [h]; exact Bool.false_ne_true)

theorem closing_of_not_descends {c : Construct} (h : descends c = false) (node : Node)
    (base length : Nat) : (scheme c node base length).closing = [] := by
  cases c with
  | block | ifThen | whileLoop | forLoop | assertion => cases h
  | _ => rfl

/-- A construct without a body that is no label and no goto emits its code and its remarks. -/
theorem lowerConstruct_plain {c : Construct} (hplain : descends c = false) (hlabel : c ≠ .label)
    (hgoto : c ≠ .goto) (node : Node) (body : Lower Unit) (base length : Nat) (s : State) :
    (lowerConstruct c node body).run s =
      (.ok (), s.extend (scheme c node base length).opening (constructRemarks c node)) := by
  have hlift : ∀ (x : Emit Unit) (s' : State), x s = ((), s') →
      ExceptT.run (liftM x : Lower Unit) s = (.ok (), s') := by
    intro x s' hx
    rw [Stoppable.run_liftM, hx]
  cases c with
  | buffer => exact hlift _ _ (lowerBuffer_apply node s)
  | set => exact hlift _ _ (lowerSet_apply node s)
  | input => exact hlift _ _ (lowerInput_apply node base length s)
  | math => exact hlift _ _ (lowerMath_apply node base length s)
  | ret => exact hlift _ _ (emit_apply .fault s)
  | call => exact lowerCall_run _ s
  | exec => exact lowerCall_run _ s
  | subroutine => exact lowerCall_run _ s
  | memberCall => exact lowerMemberCall_run s
  | label => exact absurd rfl hlabel
  | goto => exact absurd rfl hgoto
  | block => cases hplain
  | forLoop => cases hplain
  | ifThen => cases hplain
  | assertion => cases hplain
  | whileLoop => cases hplain

/-- A construct with a body is lowered to its translation if its body is. -/
theorem lowers_of_descends {node : Node} {c : Construct} (hkind : node.kind = .construct c)
    (hdescends : descends c)
    (h : Lowers (lowerAll node.children) (placedAll · node.children)
      (translateAll · node.children)) :
    Lowers (lower node) (placed · node) (translate · node) := by
  have hplaced : (placed · node) =
      fun base => (base, node) :: placedAll (base + openingSize c node) node.children := by
    funext base
    rw [placed_construct hkind, body_of_descends hkind hdescends]
  have htranslate : (translate · node) = fun base =>
      (scheme c node base (sizeAll node.children)).opening ++
        translateAll (base + openingSize c node) node.children ++
        (scheme c node base (sizeAll node.children)).closing := by
    funext base
    rw [translate_construct hkind, body_of_descends hkind hdescends]
  have hlength := fun base => length_translateAll base node.children
  rw [lower_construct hkind, hplaced, htranslate]
  cases c with
  | block => exact block_lowers hkind h _
  | ifThen => exact lowerIf_lowers hkind h hlength
  | whileLoop => exact lowerWhile_lowers hkind h hlength
  | forLoop => exact lowerFor_lowers hkind h hlength
  | assertion => exact lowerAssertion_lowers hkind h hlength
  | _ => cases hdescends

/-- A construct without a body is lowered to its translation. -/
theorem lowers_of_not_descends {node : Node} {c : Construct} (hkind : node.kind = .construct c)
    (hplain : descends c = false) : Lowers (lower node) (placed · node) (translate · node) := by
  intro s
  have hbody := body_of_not_descends hkind hplain
  show _ = (_, s.advance (placed s.code.size node) (translate s.code.size node))
  rw [lower_construct hkind, placed_construct hkind, translate_construct hkind, hbody,
    closing_of_not_descends hplain]
  simp only [placedAll, translateAll, sizeAll, List.append_nil]
  -- a label and a goto leave more behind than code and remarks
  by_cases hlabel : c = .label
  · subst hlabel
    exact congrArg (fun r => (Except.ok r.1, r.2)) (lowerLabel_apply hkind s)
  by_cases hgoto : c = .goto
  · subst hgoto
    exact congrArg (fun r => (Except.ok r.1, r.2)) (lowerGoto_apply hkind s)
  · have hremarks : constructRemarks c node = remarks node := by rw [remarks, hkind]
    rw [lowerConstruct_plain hplain hlabel hgoto node _ s.code.size 0, hremarks,
      State.extend_eq_advance s s.code.size _ (by simp [hkind, hlabel]) (by simp [hkind, hgoto])]

private theorem lowers_aux :
    (∀ node, (∀ n ∈ reached node, isConstruct n) →
        Lowers (lower node) (placed · node) (translate · node)) ∧
      ∀ nodes, (∀ n ∈ reachedAll nodes, isConstruct n) →
        Lowers (lowerAll nodes) (placedAll · nodes) (translateAll · nodes) := by
  refine walk_induction ?_ ?_ ?_ ?_
  · -- a foreign node reaches itself
    intro node hforeign hreached
    have hnode := hreached node (by rw [reached_foreign hforeign]; exact List.mem_singleton_self _)
    rw [hforeign] at hnode
    cases hnode
  · intro node c hkind ih hreached
    rw [reached_construct hkind] at hreached
    by_cases hdescends : descends c
    · rw [body_of_descends hkind hdescends] at ih hreached
      exact lowers_of_descends hkind hdescends (ih fun n hn => hreached n (List.mem_cons_of_mem _ hn))
    · exact lowers_of_not_descends hkind (Bool.eq_false_iff.2 hdescends)
  · intro _ s
    rw [lowerAll]
    exact congrArg (Prod.mk _) (State.advance_nil s).symm
  · intro node nodes hnode hnodes hreached s
    rw [reachedAll] at hreached
    have hfirst := hnode (fun n hn => hreached n (List.mem_append_left _ hn)) s
    have hrest := hnodes fun n hn => hreached n (List.mem_append_right _ hn)
    show _ = (_, s.advance (placedAll s.code.size (node :: nodes))
      (translateAll s.code.size (node :: nodes)))
    -- the other nodes start where the code of the first one ends
    rw [lowerAll, Stoppable.run_bind, hfirst]
    simp only [placedAll, translateAll]
    rw [hrest, State.advance_advance, State.size_advance, length_translate]

/-- A tree of constructs is lowered to its translation, from whichever state. -/
theorem lower_lowers {node : Node} (h : ∀ n ∈ reached node, isConstruct n) :
    Lowers (lower node) (placed · node) (translate · node) :=
  lowers_aux.1 node h

theorem lowerAll_lowers {nodes : List Node} (h : ∀ n ∈ reachedAll nodes, isConstruct n) :
    Lowers (lowerAll nodes) (placedAll · nodes) (translateAll · nodes) :=
  lowers_aux.2 nodes h

/-! ## 5. Trees with foreign nodes -/

/-- The first node among those reached that is no construct. -/
def foreign? (nodes : List Node) : Option Node :=
  nodes.find? fun node => !isConstruct node

theorem foreign?_eq_none {nodes : List Node} :
    foreign? nodes = none ↔ ∀ n ∈ nodes, isConstruct n := by
  simp [foreign?]

/-- How lowering ends that reaches nodes: it stops at the first one that is no construct. -/
def outcome (nodes : List Node) : Except Fault Unit :=
  match foreign? nodes with
  | none => .ok ()
  | some stop => .error (.unsupported stop.tag stop.trail)

/-- Whether lowering gets through the nodes that it reaches. -/
def passes (nodes : List Node) : Bool :=
  nodes.all isConstruct

/-- The places that lowering gets to: those before the first foreign node. -/
def visited (places : List (Nat × Node)) : List (Nat × Node) :=
  places.takeWhile fun place => isConstruct place.2

/-- An instruction before it is patched. -/
def unpatched : Instruction → Instruction
  | .condJump condition _ => .condJump condition none
  | .goto label _ => .goto label none
  | .assert condition _ => .assert condition none
  | other => other

theorem unpatched_withTarget (instruction : Instruction) (target : Nat) :
    unpatched (instruction.withTarget target) = unpatched instruction := by
  cases instruction <;> rfl

mutual

/-- The instructions that lowering a node leaves behind, from an address on. If it stops in the body
of the node, then the jump over the body is still pending, but the scope of the body is left. -/
def emitted (base : Nat) : Node → List Instruction
  | ⟨.construct c, tag, attributes, children, text, trail⟩ =>
    let node : Node := ⟨.construct c, tag, attributes, children, text, trail⟩
    if passes (reached node) then translate base node
    else
      (scheme c node base 0).opening.map unpatched ++
        emittedAll (base + openingSize c node) children ++ [.scopeExit]
  | _ => []

/-- The instructions that lowering nodes in a row leaves behind. -/
def emittedAll (base : Nat) : List Node → List Instruction
  | [] => []
  | node :: nodes =>
    emitted base node ++
      if passes (reached node) then emittedAll (base + size node) nodes else []

end

section Passing

variable {nodes first second : List Node} {places : List (Nat × Node)}

theorem outcome_of_passes (h : passes nodes) : outcome nodes = .ok () := by
  rw [outcome, foreign?_eq_none.2 (List.all_eq_true.1 h)]

theorem outcome_of_not_passes (h : passes nodes = false) :
    ∃ stop, foreign? nodes = some stop ∧ outcome nodes = .error (.unsupported stop.tag stop.trail) := by
  cases hstop : foreign? nodes with
  | none => rw [passes, List.all_eq_true.2 (foreign?_eq_none.1 hstop)] at h; cases h
  | some stop => exact ⟨stop, rfl, by rw [outcome, hstop]⟩

theorem outcome_append :
    outcome (first ++ second) = (do outcome first; outcome second) := by
  unfold outcome foreign?
  rw [List.find?_append]
  cases List.find? (fun node => !isConstruct node) first <;> rfl

theorem visited_append_of_passes (hplaces : places.map Prod.snd = nodes) (h : passes nodes)
    (places' : List (Nat × Node)) : visited (places ++ places') = places ++ visited places' := by
  subst hplaces
  apply List.takeWhile_append_of_pos
  intro place hplace
  exact List.all_eq_true.1 h _ (List.mem_map_of_mem hplace)

theorem visited_of_passes (hplaces : places.map Prod.snd = nodes) (h : passes nodes) :
    visited places = places := by
  have hall := visited_append_of_passes hplaces h []
  have hnil : visited [] = [] := rfl
  rwa [List.append_nil, hnil, List.append_nil] at hall

theorem visited_append_of_not_passes (hplaces : places.map Prod.snd = nodes)
    (h : passes nodes = false) (places' : List (Nat × Node)) :
    visited (places ++ places') = visited places := by
  subst hplaces
  rw [visited, List.takeWhile_append, if_neg]
  · rfl
  · intro hlength
    -- a part of the list that is as long as all of it is all of it
    have hall := (List.takeWhile_prefix _).eq_of_length hlength
    rw [passes, List.all_map, List.all_eq_false] at h
    obtain ⟨place, hplace, hforeign⟩ := h
    rw [← hall] at hplace
    exact hforeign (List.all_eq_true.1 List.all_takeWhile _ hplace)

end Passing

section Equations

variable {node : Node} {c : Construct}

theorem emitted_of_passes (h : passes (reached node)) (base : Nat) :
    emitted base node = translate base node := by
  obtain ⟨kind, tag, attributes, children, text, trail⟩ := node
  cases kind with
  | construct c => rw [emitted]; exact if_pos h
  | part p => rfl
  | foreign name => rfl

theorem emitted_of_not_passes (hkind : node.kind = .construct c)
    (h : passes (reached node) = false) (base : Nat) :
    emitted base node = (scheme c node base 0).opening.map unpatched ++
      emittedAll (base + openingSize c node) node.children ++ [.scopeExit] := by
  obtain ⟨kind, tag, attributes, children, text, trail⟩ := node
  subst hkind
  rw [emitted]
  exact if_neg (by rw [h]; exact Bool.false_ne_true)

theorem emitted_foreign (h : isConstruct node = false) (base : Nat) : emitted base node = [] := by
  obtain ⟨_ | _ | _, tag, attributes, children, text, trail⟩ := node
  · cases h
  · rfl
  · rfl

/-- Lowering stops in a construct only if it goes on to the children. -/
theorem descends_of_not_passes (hkind : node.kind = .construct c)
    (h : passes (reached node) = false) : descends c ∧ passes (reachedAll node.children) = false := by
  rw [reached_construct hkind, passes, List.all_cons, isConstruct_iff.2 ⟨c, hkind⟩, Bool.true_and] at h
  by_cases hdescends : descends c
  · rw [body_of_descends hkind hdescends] at h
    exact ⟨hdescends, h⟩
  · rw [body_of_not_descends hkind (Bool.eq_false_iff.2 hdescends)] at h
    cases h

/-- A construct is visited before its body. -/
theorem visited_placed (hkind : node.kind = .construct c) (hdescends : descends c) (base : Nat) :
    visited (placed base node) =
      (base, node) :: visited (placedAll (base + openingSize c node) node.children) := by
  rw [placed_construct hkind, body_of_descends hkind hdescends, visited, List.takeWhile_cons,
    if_pos (isConstruct_iff.2 ⟨c, hkind⟩)]
  rfl

end Equations

section Stopping

variable {node : Node} {c : Construct} {body : Lower Unit} {fault : Fault}
  {places : Nat → List (Nat × Node)} {code : Nat → List Instruction}

theorem unpatched_of_isOrdinary {instruction : Instruction} (h : instruction.isOrdinary) :
    unpatched instruction = instruction := by
  cases instruction with
  | condJump | goto | assert => cases h
  | _ => rfl

/-- What stands behind the scope of a body that stops is not carried out. -/
theorem Ends.stopped (h : Ends body (.error fault) places code)
    (hlabel : node.kind ≠ .construct .label) (hgoto : node.kind ≠ .construct .goto) (s : State)
    (before : List Instruction) (rest : Unit → Lower Unit) :
    (inScope body >>= rest).run (s.extend before (remarks node)) =
      (.error fault, s.advance ((s.code.size, node) :: places (s.code.size + before.length + 1))
        (before ++ .scopeEnter :: code (s.code.size + before.length + 1) ++ [.scopeExit])) := by
  rw [Stoppable.run_bind, h.scoped hlabel hgoto]

/-- A construct whose body stops has emitted what stands before the body, and leaves the scope. -/
theorem lowerConstruct_stopped (hkind : node.kind = .construct c) (hdescends : descends c)
    (h : Ends body (.error fault) places code) :
    Ends (lowerConstruct c node body) (.error fault)
      (fun base => (base, node) :: places (base + openingSize c node))
      (fun base => (scheme c node base 0).opening.map unpatched ++
        code (base + openingSize c node) ++ [.scopeExit]) := by
  intro s
  have hlabel : node.kind ≠ .construct .label := by
    rintro hlabel
    cases hkind.symm.trans hlabel
    cases hdescends
  have hgoto : node.kind ≠ .construct .goto := by
    rintro hgoto
    cases hkind.symm.trans hgoto
    cases hdescends
  cases c with
  | block =>
    have hremarks : remarks node = [] := by
      rw [remarks, hkind]
      rfl
    have hscope : (inScope body).run (s.extend [] (remarks node)) = _ := h.scoped hlabel hgoto s []
    rw [hremarks, State.extend_nil] at hscope
    exact hscope
  | ifThen =>
    refine ((lowerIf_run hkind body s).trans (h.stopped hlabel hgoto s _ _)).trans ?_
    simp only [scheme, List.map_cons, unpatched_of_isOrdinary (general_isOrdinary node)]
    rfl
  | whileLoop =>
    refine ((lowerWhile_run hkind body s).trans (h.stopped hlabel hgoto s _ _)).trans ?_
    simp only [scheme, List.map_cons, unpatched_of_isOrdinary (general_isOrdinary node)]
    rfl
  | forLoop =>
    refine ((lowerFor_run hkind body s).trans (h.stopped hlabel hgoto s _ _)).trans ?_
    simp only [scheme, List.map_cons, unpatched_of_isOrdinary (count_isOrdinary node)]
    rfl
  | assertion =>
    exact (lowerAssertion_run hkind body s).trans (h.stopped hlabel hgoto s _ _)
  | _ => cases hdescends

end Stopping

/-- A construct that lowering gets through is lowered as a whole. -/
theorem ends_of_passes {node : Node} (h : passes (reached node)) :
    Ends (lower node) (outcome (reached node)) (fun base => visited (placed base node))
      (emitted · node) := by
  intro s
  show _ = (_, s.advance (visited (placed s.code.size node)) (emitted s.code.size node))
  rw [lower_lowers (List.all_eq_true.1 h), outcome_of_passes h,
    visited_of_passes (placed_map_snd _ node) h, emitted_of_passes h]

/-- A construct in whose body lowering stops. -/
theorem ends_of_not_passes {node : Node} {c : Construct} (hkind : node.kind = .construct c)
    (hpasses : passes (reached node) = false)
    (h : Ends (lowerAll node.children) (outcome (reachedAll node.children))
      (fun base => visited (placedAll base node.children)) (emittedAll · node.children)) :
    Ends (lower node) (outcome (reached node)) (fun base => visited (placed base node))
      (emitted · node) := by
  have hconstruct : isConstruct node = true := isConstruct_iff.2 ⟨c, hkind⟩
  obtain ⟨hdescends, hchildren⟩ := descends_of_not_passes hkind hpasses
  obtain ⟨stop, -, houtcome⟩ := outcome_of_not_passes hchildren
  have hnode : outcome (reached node) = outcome (reachedAll node.children) := by
    rw [reached_construct hkind, body_of_descends hkind hdescends, outcome, foreign?, List.find?_cons,
      hconstruct]
    rfl
  simp only [hnode, visited_placed hkind hdescends, emitted_of_not_passes hkind hpasses,
    lower_construct hkind]
  rw [houtcome] at h ⊢
  exact lowerConstruct_stopped hkind hdescends h

private theorem ends_aux :
    (∀ node, Ends (lower node) (outcome (reached node)) (fun base => visited (placed base node))
        (emitted · node)) ∧
      ∀ nodes, Ends (lowerAll nodes) (outcome (reachedAll nodes))
        (fun base => visited (placedAll base nodes)) (emittedAll · nodes) := by
  refine walk_induction ?_ ?_ ?_ ?_
  · intro node hforeign s
    simp only [lower_foreign hforeign, reached_foreign hforeign, placed_foreign hforeign,
      emitted_foreign hforeign, outcome, foreign?, visited, List.find?_cons, List.takeWhile_cons,
      hforeign, Bool.not_false, Bool.false_eq_true, if_false, State.advance_nil]
    rfl
  · intro node c hkind ih
    cases hpasses : passes (reached node) with
    | true => exact ends_of_passes hpasses
    | false =>
      rw [body_of_descends hkind (descends_of_not_passes hkind hpasses).1] at ih
      exact ends_of_not_passes hkind hpasses ih
  · intro s
    rw [lowerAll]
    exact congrArg (Prod.mk _) (State.advance_nil s).symm
  · intro node nodes hnode hnodes s
    rw [lowerAll, Stoppable.run_bind, hnode s]
    simp only [reachedAll, placedAll, emittedAll, outcome_append]
    cases hpasses : passes (reached node) with
    | true =>
      -- the other nodes start where the code of the first one ends
      rw [outcome_of_passes hpasses, visited_of_passes (placed_map_snd _ node) hpasses,
        visited_append_of_passes (placed_map_snd _ node) hpasses, emitted_of_passes hpasses]
      simp only [if_true]
      rw [hnodes, State.advance_advance, State.size_advance, length_translate]
      rfl
    | false =>
      obtain ⟨stop, -, houtcome⟩ := outcome_of_not_passes hpasses
      rw [houtcome, visited_append_of_not_passes (placed_map_snd _ node) hpasses]
      simp only [Bool.false_eq_true, if_false, List.append_nil]
      rfl

/-- What comes of any node, from whichever state. -/
theorem lower_ends (node : Node) :
    Ends (lower node) (outcome (reached node)) (fun base => visited (placed base node))
      (emitted · node) :=
  ends_aux.1 node

theorem lowerAll_ends (nodes : List Node) :
    Ends (lowerAll nodes) (outcome (reachedAll nodes)) (fun base => visited (placedAll base nodes))
      (emittedAll · nodes) :=
  ends_aux.2 nodes

/-- A computation that, from whichever state, stops with a fault. -/
def Stops {α : Type} (x : Lower α) (fault : Fault) : Prop :=
  ∀ s : State, (x.run s).1 = .error fault

theorem Stops.bind {α β : Type} {x : Lower α} {fault : Fault} (h : Stops x fault)
    (f : α → Lower β) : Stops (x >>= f) fault := by
  intro s
  rw [Stoppable.run_bind]
  rcases hx : x.run s with ⟨fault' | a, s'⟩
  · cases (congrArg Prod.fst hx).symm.trans (h s)
    rfl
  · cases (congrArg Prod.fst hx).symm.trans (h s)

/-- Lowering stops at the first foreign node that it reaches, and names it. -/
theorem lower_stops {node stop : Node} (h : foreign? (reached node) = some stop) :
    Stops (lower node) (.unsupported stop.tag stop.trail) := by
  intro s
  rw [lower_ends node s, outcome, h]

theorem lowerAll_stops {nodes : List Node} {stop : Node}
    (h : foreign? (reachedAll nodes) = some stop) :
    Stops (lowerAll nodes) (.unsupported stop.tag stop.trail) := by
  intro s
  rw [lowerAll_ends nodes s, outcome, h]

/-! ## 6. The state behind a node -/

/-- If lowering a node does not stop, then every node it reaches is a construct. -/
theorem isConstruct_of_lower_ok {node : Node} {s s' : State}
    (h : (lower node).run s = (.ok (), s')) : ∀ n ∈ reached node, isConstruct n := by
  cases hstop : foreign? (reached node) with
  | none => exact foreign?_eq_none.1 hstop
  | some stop => cases (congrArg Prod.fst h).symm.trans (lower_stops hstop s)

/-- Lowering a node appends its translation to the code. It appends a fixup for each goto that it
reaches and that has a label, in document order, at the address of the goto; and it gives a label
that is not known yet the address of its first node. All other labels stay as they are. -/
theorem lower_eq_translate {node : Node} {s s' : State} (h : (lower node).run s = (.ok (), s')) :
    s'.code = s.code ++ (translate s.code.size node).toArray ∧
      s'.fixups = s.fixups ++ (awaited (placed s.code.size node)).toArray ∧
      (∀ fixup ∈ awaited (placed s.code.size node),
        s'.code[fixup.address]? = some (.goto fixup.label none)) ∧
      ∀ name, s'.labels.get? name =
        (s.labels.get? name).or ((labelsOf (placed s.code.size node)).lookup name) := by
  have hrun := lower_lowers (isConstruct_of_lower_ok h) s
  rw [h, Prod.mk.injEq] at hrun
  obtain ⟨-, rfl⟩ := hrun
  refine ⟨rfl, rfl, fun fixup hfixup => ?_, fun name => get?_defineAll _ _ name⟩
  -- the gotos of the translation are those of the placed nodes, and a fixup names one of them
  have hgoto := mem_awaited hfixup
  rw [← gotosFrom_translate, mem_gotosFrom] at hgoto
  obtain ⟨hle, hat⟩ := hgoto
  change (s.code ++ (translate s.code.size node).toArray)[fixup.address]? = _
  rw [Array.getElem?_append_right hle, List.getElem?_toArray, hat]

/-- A loop that an `if` in its body restarts behind a label. -/
def restartedLoop : Node := .ofElement {
  tag := "while"
  attributes := .ofList [("name", "n"), ("value", "0")]
  children := [
    { tag := "label", attributes := .ofList [("name", "top")] },
    { tag := "if"
      attributes := .ofList [("item", "x"), ("eval", "limit"), ("type", "less")]
      children := [{ tag := "goto", attributes := .ofList [("label", "top")] }] }] }

/-- The loop behind code that is there already, with a label of its own. -/
theorem lower_restartedLoop :
    let s : State := { code := #[.nop], labels := .ofList [("start", 0)] }
    ∃ s', (lower restartedLoop).run s = (.ok (), s') ∧
      s'.code = #[.nop,
        .loadLiteral "0", .moveRight, .fetch "n", .arith "==", .condJump .equal (some 18),
        .scopeEnter,
        .eval "limit", .moveRight, .fetch "x", .arith "-", .condJump .less (some 15),
        .scopeEnter, .goto "top" none, .scopeExit, .nop,
        .scopeExit, .jump 1] ∧
      s'.fixups = #[⟨"top", 13⟩] ∧
      s'.labels.get? "top" = some 7 ∧ s'.labels.get? "start" = some 0 := by
  intro s
  have hall : ∀ n ∈ reached restartedLoop, isConstruct n := by decide +kernel
  have hrun := lower_lowers hall s
  obtain ⟨hcode, hfixups, -, hlabels⟩ := lower_eq_translate hrun
  refine ⟨_, hrun, hcode.trans ?_, hfixups.trans ?_, (hlabels "top").trans ?_,
    (hlabels "start").trans ?_⟩ <;> decide +kernel

end TreeScript.Lowering
