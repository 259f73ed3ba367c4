import TreeScript.Proofs.Compile
import TreeScript.Proofs.Scopes

/-!
# Runs of lowering

Nodes may be lowered one after the other, in scopes within scopes, and fixups may be resolved at any
time, also after lowering has stopped somewhere inside a tree. Whatever was done before, every fixup
waits at a pending goto of its own, so no patch ever fails: a run meets no fault but a foreign node.
-/

namespace TreeScript.Lowering

/-! ## 1. Gotos of code that is broken off -/

theorem goto?_unpatched {instruction : Instruction} (h : instruction.goto? = none) :
    (unpatched instruction).goto? = none := by
  cases instruction with
  | goto => cases h
  | _ => rfl

/-- The construct around a body that stops leaves no goto of its own. -/
theorem gotosFrom_broken {c : Construct} {node : Node} (hkind : node.kind = .construct c)
    (hpasses : passes (reached node) = false) (base : Nat)
    (h : gotosFrom (base + openingSize c node)
        (emittedAll (base + openingSize c node) node.children) =
      (visited (placedAll (base + openingSize c node) node.children)).filterMap gotoAt?) :
    gotosFrom base (emitted base node) = (visited (placed base node)).filterMap gotoAt? := by
  have hdescends := (descends_of_not_passes hkind hpasses).1
  have hgoto : c ≠ .goto := by
    rintro rfl
    cases hdescends
  have hnode : gotoAt? (base, node) = none := if_neg (by simp [hkind, hgoto])
  have hopening : gotosFrom base ((scheme c node base 0).opening.map unpatched) = [] := by
    apply gotosFrom_eq_nil
    intro i hi
    obtain ⟨j, hj, rfl⟩ := List.mem_map.1 hi
    exact goto?_unpatched (opening_settled hgoto node base 0 j hj).no_goto
  have hclosing : ∀ address, gotosFrom address [.scopeExit] = [] := fun _ => rfl
  rw [emitted_of_not_passes hkind hpasses, visited_placed hkind hdescends, gotosFrom_append,
    gotosFrom_append, hopening, hclosing, List.length_map, length_opening, h, List.filterMap_cons,
    hnode, List.nil_append, List.append_nil]

private theorem gotosFrom_emitted_aux :
    (∀ node base,
        gotosFrom base (emitted base node) = (visited (placed base node)).filterMap gotoAt?) ∧
      ∀ nodes base, gotosFrom base (emittedAll base nodes) =
        (visited (placedAll base nodes)).filterMap gotoAt? := by
  refine walk_induction ?_ ?_ ?_ ?_
  · intro node hforeign base
    rw [emitted_foreign hforeign, placed_foreign hforeign, visited, List.takeWhile_cons, if_neg]
    · rfl
    · rw [hforeign]
      exact Bool.false_ne_true
  · intro node c hkind ih base
    cases hpasses : passes (reached node) with
    | true =>
      rw [emitted_of_passes hpasses, visited_of_passes (placed_map_snd base node) hpasses,
        gotosFrom_translate]
    | false =>
      rw [body_of_descends hkind (descends_of_not_passes hkind hpasses).1] at ih
      exact gotosFrom_broken hkind hpasses base (ih _)
  · intro base
    rfl
  · intro node nodes hnode hnodes base
    rw [emittedAll, placedAll]
    cases hpasses : passes (reached node) with
    | true =>
      rw [if_pos rfl, emitted_of_passes hpasses, gotosFrom_append, length_translate, hnodes,
        gotosFrom_translate, visited_append_of_passes (placed_map_snd base node) hpasses,
        List.filterMap_append]
    | false =>
      -- nodes behind the one that stops are neither lowered nor visited
      rw [if_neg Bool.false_ne_true, List.append_nil, hnode,
        visited_append_of_not_passes (placed_map_snd base node) hpasses]

/-- The gotos left behind are the goto nodes up to the foreign one, if there is one. -/
theorem gotosFrom_emitted (base : Nat) (node : Node) :
    gotosFrom base (emitted base node) = (visited (placed base node)).filterMap gotoAt? :=
  gotosFrom_emitted_aux.1 node base

theorem gotosFrom_emittedAll (base : Nat) (nodes : List Node) :
    gotosFrom base (emittedAll base nodes) = (visited (placedAll base nodes)).filterMap gotoAt? :=
  gotosFrom_emitted_aux.2 nodes base

/-! ## 2. Sound states -/

/-- Every fixup waits at a pending goto of its own. -/
def State.Sound (s : State) : Prop :=
  Waiting s.code s.fixups.toList

/-- A computation that keeps states sound, and that stops just at the first of the nodes that is
foreign. -/
def Reaches {α : Type} (x : Lower α) (nodes : List Node) : Prop :=
  ∀ s : State, s.Sound → (x.run s).1.map (fun _ => ()) = outcome nodes ∧ (x.run s).2.Sound

theorem State.Sound.extend {s : State} (h : s.Sound) {instruction : Instruction}
    (hgoto : instruction.goto? = none) : (s.extend [instruction] []).Sound := by
  -- a single instruction is code with no nodes placed in it
  have hadvance : s.extend [instruction] [] = s.advance [] [instruction] := by
    rw [← List.nil_append [instruction], ← State.advance_extend, State.advance_nil]
    rfl
  rw [hadvance]
  apply Waiting.advance h
  apply gotosFrom_eq_nil
  intro i hi
  rwa [List.mem_singleton.1 hi]

section Computations

variable {α β : Type} {nodes first second : List Node}

theorem Reaches.result {x : Lower Unit} (h : Reaches x nodes) {s : State} (hs : s.Sound) :
    (x.run s).1 = outcome nodes := by
  rw [← (h s hs).1]
  cases (x.run s).1 <;> rfl

/-- A computation whose gotos are those of the placed nodes keeps states sound. -/
theorem Ends.reaches {x : Lower Unit} {places : Nat → List (Nat × Node)}
    {code : Nat → List Instruction} (h : Ends x (outcome nodes) places code)
    (hgotos : ∀ base, gotosFrom base (code base) = (places base).filterMap gotoAt?) :
    Reaches x nodes := by
  intro s hs
  rw [h s]
  refine ⟨?_, Waiting.advance hs (hgotos s.code.size)⟩
  cases outcome nodes <;> rfl

theorem lower_reaches (node : Node) : Reaches (lower node) (reached node) :=
  (lower_ends node).reaches fun base => gotosFrom_emitted base node

theorem lowerAll_reaches (nodes : List Node) : Reaches (lowerAll nodes) (reachedAll nodes) :=
  (lowerAll_ends nodes).reaches fun base => gotosFrom_emittedAll base nodes

/-- Resolving takes out all fixups, so none is left that could wait at a linked goto. -/
theorem resolve_reaches : Reaches resolve [] := by
  intro s hs
  rw [resolve_run hs]
  exact ⟨rfl, waiting_nil _⟩

theorem pure_reaches (a : α) : Reaches (pure a) [] :=
  fun _ hs => ⟨rfl, hs⟩

theorem Reaches.bind {x : Lower α} {f : α → Lower β} (hx : Reaches x first)
    (hf : ∀ a, Reaches (f a) second) : Reaches (x >>= f) (first ++ second) := by
  intro s hs
  have hfirst := hx s hs
  rw [Stoppable.run_bind, outcome_append]
  -- a fault of the first nodes is the result, whichever nodes come behind them
  rcases hrun : x.run s with ⟨fault | a, s'⟩
  · rw [hrun] at hfirst
    rw [← hfirst.1]
    exact ⟨rfl, hfirst.2⟩
  · rw [hrun] at hfirst
    rw [← hfirst.1]
    exact hf a s' hfirst.2

/-- What a computation answers makes no difference. -/
theorem Reaches.answer {x : Lower α} (h : Reaches x nodes) (b : β) :
    Reaches (do let _ ← x; return b) nodes := by
  have hbind := h.bind fun _ => pure_reaches b
  rwa [List.append_nil] at hbind

theorem Reaches.discard {x : Lower α} (h : Reaches x nodes) : Reaches (discard x) nodes := by
  rw [Stoppable.discard_eq]
  exact h.answer ()

theorem Reaches.scope {x : Lower Unit} (h : Reaches x nodes) : Reaches (inScope x) nodes := by
  intro s hs
  have henter : (s.extend [.scopeEnter] []).Sound := hs.extend rfl
  obtain ⟨hresult, hsound⟩ := h _ henter
  rw [inScope_run]
  exact ⟨hresult, hsound.extend rfl⟩

end Computations

/-! ## 3. Steps -/

/-- Steps that lower nodes, resolve fixups, and put such steps into scopes. -/
inductive Step.Walks : Step → Prop where
  | lower (node : Node) : Walks (.lower node)
  | children (node : Node) : Walks (.children node)
  | resolve : Walks .resolve
  | scope {body : List Step} (h : ∀ step ∈ body, Walks step) : Walks (.scope body)

mutual

/-- The nodes that a step reaches, in document order. -/
def Step.reached : Step → List Node
  | .lower node => Lowering.reached node
  | .children node => reachedAll node.children
  | .scope body => reachedBy body
  | _ => []

/-- The nodes that steps reach, one step after the other. -/
def reachedBy : List Step → List Node
  | [] => []
  | step :: steps => step.reached ++ reachedBy steps

end

theorem runAll_reaches {steps : List Step} (h : ∀ step ∈ steps, Reaches step.run step.reached) :
    Reaches (runAll steps) (reachedBy steps) := by
  induction steps with
  | nil =>
    rw [runAll, reachedBy]
    exact pure_reaches ()
  | cons step steps ih =>
    obtain ⟨hstep, hsteps⟩ := List.forall_mem_cons.1 h
    rw [runAll, reachedBy]
    exact hstep.discard.bind fun _ => ih hsteps

/-- A step ends as the nodes that it reaches tell. -/
theorem Step.Walks.reaches {step : Step} (h : step.Walks) : Reaches step.run step.reached := by
  induction h with
  | lower node =>
    rw [Step.run, Step.reached]
    exact (lower_reaches node).answer _
  | children node =>
    rw [Step.run, Step.reached]
    exact (lowerAll_reaches node.children).answer _
  | resolve =>
    rw [Step.run]
    exact resolve_reaches.answer _
  | scope _ ih =>
    rw [Step.run, Step.reached]
    exact (runAll_reaches ih).scope.answer _

/-- The states of runs that begin without code. A step that stops does not end a run, and neither
does one in a scope, so entering and leaving a scope are steps of their own. -/
inductive Reachable : State → Prop where
  | new (order : LabelOrder) (diagnostics : Diagnostics) : Reachable { order, diagnostics }
  | step {s : State} {step : Step} (h : Reachable s) (hstep : step.Walks) :
    Reachable (step.run.run s).2
  | enter {s : State} (h : Reachable s) : Reachable (emit .scopeEnter s).2
  | leave {s : State} (h : Reachable s) : Reachable (emit .scopeExit s).2

theorem Reachable.sound {s : State} (h : Reachable s) : s.Sound := by
  induction h with
  | new diagnostics => exact waiting_nil _
  | step _ hstep ih => exact (hstep.reaches _ ih).2
  | enter _ ih =>
    rw [emit_apply]
    exact ih.extend rfl
  | leave _ ih =>
    rw [emit_apply]
    exact ih.extend rfl

end TreeScript.Lowering

namespace TreeScript.Compiler

open Lowering

/-! ## 4. Faults of runs and compiles -/

/-- At any point of a run, fixups are resolved without a fault, and lowering stops just at the first
foreign node that it reaches, with the tag and the trail of this node. So no compile ends because
something could not be patched. -/
theorem patch_faults_unreachable :
    (∀ s, Reachable s →
      (resolve.run s).1 = .ok () ∧
        (∀ node, ((lower node).run s).1 = outcome (reached node)) ∧
        (∀ node : Node, ((lowerAll node.children).run s).1 = outcome (reachedAll node.children)) ∧
        ∀ steps : List Step, (∀ step ∈ steps, step.Walks) →
          ((inScope (runAll steps)).run s).1 = outcome (reachedBy steps)) ∧
      ∀ grammar document order session address,
        let result := (compile ⟨grammar, .standard⟩ document order session).1
        result ≠ .error (.fatal (.notPatchable address)) ∧
          result ≠ .error (.fatal (.alreadyPatched address)) ∧
          result ≠ .error (.fatal (.outOfRange address)) := by
  refine ⟨fun s hs => ⟨?_, fun node => ?_, fun node => ?_, fun steps hsteps => ?_⟩,
    fun grammar document order session address => ⟨fun h => ?_, fun h => ?_, fun h => ?_⟩⟩
  · exact resolve_reaches.result hs.sound
  · exact (lower_reaches node).result hs.sound
  · exact (lowerAll_reaches node.children).result hs.sound
  · exact (runAll_reaches fun step hstep => (hsteps step hstep).reaches).scope.result hs.sound
  -- a compile that is ended by a fault lacks a part or has met a foreign node
  all_goals
    obtain ⟨-, ⟨_, hfault⟩ | ⟨_, _, -, -, hfault⟩⟩ := compile_fatal h
    · cases hfault
    · cases hfault

/-- A goto is left in a scope that is broken off, after a loop that was broken off. -/
theorem strayLoop_then_resolve :
    let s := ((Step.scope [.lower restartedLoop, .children strayLoop, .resolve]).run.run
      ((Step.lower strayLoop).run.run {}).2).2
    s.fixups = #[⟨"top", 27⟩] ∧ (resolve.run s).1 = .ok () ∧
      ((lower strayLoop).run s).1 =
        .error (.unsupported "note" ⟨"while", [("if", 0), ("note", 1)]⟩) := by
  intro s
  have hscope : (Step.scope [.lower restartedLoop, .children strayLoop, .resolve]).Walks := by
    refine .scope fun step hstep => ?_
    rcases List.mem_cons.1 hstep with rfl | hstep
    · exact .lower _
    · rcases List.mem_cons.1 hstep with rfl | hstep
      · exact .children _
      · rw [List.mem_singleton.1 hstep]
        exact .resolve
  have hs : Reachable s := ((Reachable.new .byName {}).step (.lower strayLoop)).step hscope
  obtain ⟨hresolve, hlower, -⟩ := patch_faults_unreachable.1 s hs
  exact ⟨by decide +kernel, hresolve, hlower strayLoop⟩

end TreeScript.Compiler
