import TreeScript.Proofs.Lowering

/-!
# Scopes

What lowering appends to a code is well-bracketed: it leaves no scope that it has not entered, and in
the end it has left every scope that it entered. This holds also if lowering stops, from however
deep inside: the scopes around a foreign node are left one after the other on the way out.

* `depth` counts the scopes that a code enters against those that it leaves.
* `Balanced` is a well-bracketed code.
* `Nested` is a computation that lowers nodes in scopes within scopes.
-/

namespace TreeScript.Lowering

/-! ## 1. Depth -/

/-- The number of scopes that a code enters, less the number of scopes that it leaves. -/
def depth (code : List Instruction) : Int :=
  code.count .scopeEnter - code.count .scopeExit

theorem depth_nil : depth [] = 0 := rfl

theorem depth_append (first second : List Instruction) :
    depth (first ++ second) = depth first + depth second := by
  simp only [depth, List.count_append, Int.natCast_add]
  omega

theorem depth_cons (instruction : Instruction) (code : List Instruction) :
    depth (instruction :: code) = depth [instruction] + depth code :=
  depth_append [instruction] code

theorem depth_of_isOrdinary {instruction : Instruction} (h : instruction.isOrdinary) :
    depth [instruction] = 0 := by
  cases instruction with
  | scopeEnter | scopeExit => cases h
  | _ => rfl

/-- A code that neither enters nor leaves a scope. -/
def Flat (code : List Instruction) : Prop :=
  ∀ instruction ∈ code, depth [instruction] = 0

theorem flat_nil : Flat [] := by
  intro instruction h
  cases h

theorem Flat.cons {instruction : Instruction} {code : List Instruction} (h : Flat code)
    (hfirst : depth [instruction] = 0) : Flat (instruction :: code) :=
  List.forall_mem_cons.2 ⟨hfirst, h⟩

theorem flat_append {first second : List Instruction} :
    Flat (first ++ second) ↔ Flat first ∧ Flat second :=
  List.forall_mem_append

theorem AllOrdinary.flat {code : List Instruction} (h : AllOrdinary code) : Flat code :=
  fun instruction hmem => depth_of_isOrdinary (h instruction hmem)

theorem Flat.depth_take {code : List Instruction} (h : Flat code) (n : Nat) :
    depth (code.take n) = 0 := by
  induction code generalizing n with
  | nil => rw [List.take_nil, depth_nil]
  | cons instruction code ih =>
    obtain ⟨hfirst, hrest⟩ := List.forall_mem_cons.1 h
    cases n with
    | zero => rfl
    | succ n => rw [List.take_succ_cons, depth_cons, hfirst, ih hrest, Int.add_zero]

theorem Flat.depth_eq {code : List Instruction} (h : Flat code) : depth code = 0 := by
  have htake := h.depth_take code.length
  rwa [List.take_length] at htake

/-- The depth does not change if each instruction is replaced by one that counts the same. -/
theorem depth_map {f : Instruction → Instruction} (h : ∀ i, depth [f i] = depth [i])
    (code : List Instruction) : depth (code.map f) = depth code := by
  induction code with
  | nil => rfl
  | cons instruction code ih => rw [List.map_cons, depth_cons, depth_cons instruction, h, ih]

/-! ## 2. Well-bracketed code -/

/-- A code that, read from the start, never leaves more scopes than it has entered, and that leaves
as many as it enters. -/
structure Balanced (code : List Instruction) : Prop where
  nonneg : ∀ n, 0 ≤ depth (code.take n)
  closed : depth code = 0

theorem Flat.balanced {code : List Instruction} (h : Flat code) : Balanced code where
  nonneg n := Int.le_of_eq (h.depth_take n).symm
  closed := h.depth_eq

theorem balanced_nil : Balanced [] := flat_nil.balanced

theorem Balanced.append {first second : List Instruction} (h : Balanced first)
    (h' : Balanced second) : Balanced (first ++ second) where
  nonneg n := by
    rw [List.take_append, depth_append]
    exact Int.add_nonneg (h.nonneg _) (h'.nonneg _)
  closed := by rw [depth_append, h.closed, h'.closed, Int.add_zero]

/-- A scope around a well-bracketed code. -/
theorem Balanced.scope {code : List Instruction} (h : Balanced code) :
    Balanced (.scopeEnter :: code ++ [.scopeExit]) where
  nonneg n := by
    cases n with
    | zero => exact Int.le_refl 0
    | succ n =>
      have hbody := h.nonneg n
      -- the scope is entered first, so leaving it at the end makes up for that at most
      have hexit : -1 ≤ depth ([Instruction.scopeExit].take (n - code.length)) := by
        cases n - code.length with
        | zero => decide
        | succ m =>
          rw [List.take_succ_cons, List.take_nil]
          decide
      have henter : depth [Instruction.scopeEnter] = 1 := rfl
      rw [List.cons_append, List.take_succ_cons, depth_cons, List.take_append, depth_append]
      omega
  closed := by
    rw [depth_append, depth_cons, h.closed]
    rfl

theorem Balanced.map {code : List Instruction} (h : Balanced code) {f : Instruction → Instruction}
    (hf : ∀ i, depth [f i] = depth [i]) : Balanced (code.map f) where
  nonneg n := by
    rw [← List.map_take, depth_map hf]
    exact h.nonneg n
  closed := by rw [depth_map hf, h.closed]

theorem callCode_balanced (node : Node) {dispatch : List Instruction} (h : AllOrdinary dispatch) :
    Balanced (callCode node dispatch) := by
  have hbound := (allOrdinary_append.2 ⟨parameterCode_allOrdinary node, h⟩).flat.balanced
  have hcall := hbound.scope.append (resultCode_allOrdinary node).flat.balanced
  rwa [List.append_assoc, List.singleton_append, List.cons_append] at hcall

theorem opening_balanced {c : Construct} (h : descends c = false) (node : Node) (base length : Nat) :
    Balanced (scheme c node base length).opening := by
  rcases opening_cases h node base length with rfl | hordinary | ⟨dispatch, hdispatch, heq⟩
  · exact (flat_nil.cons rfl).balanced
  · exact hordinary.flat.balanced
  · rw [heq]
    exact callCode_balanced node hdispatch

/-- The code of a construct before and behind the scope of its body. It has no scopes of its own, and
its jumps do not lead into the scope. -/
structure Surrounds (c : Construct) (node : Node) (base length : Nat)
    (before behind : List Instruction) : Prop where
  opening : (scheme c node base length).opening = before ++ [.scopeEnter]
  closing : (scheme c node base length).closing = .scopeExit :: behind
  flat : Flat (before ++ behind)
  outside : ∀ target ∈ (before ++ behind).filterMap Instruction.target?,
    ∃ place, target = base + place ∧ (place ≤ before.length ∨
      before.length + length + 2 ≤ place ∧ place ≤ before.length + length + 2 + behind.length)

theorem exists_surrounds {c : Construct} (h : descends c) (node : Node) (base length : Nat) :
    ∃ before behind, Surrounds c node base length before behind := by
  have hgeneral := general_isOrdinary node
  have hcount := count_isOrdinary node
  have hsource := Instruction.target?_of_isPlain (Instruction.isPlain_of_isOrdinary hgeneral)
  have hcounter := Instruction.target?_of_isPlain (Instruction.isPlain_of_isOrdinary hcount)
  have nil := flat_nil
  cases c with
  | block => exact ⟨[], [], rfl, rfl, nil, by simp⟩
  -- an `if` and an assertion lead right behind the scope
  | ifThen =>
    refine ⟨[_, _, _, _, _], [_], rfl, rfl, ?_, fun target htarget => ?_⟩
    · exact (((((nil.cons rfl).cons rfl).cons rfl).cons rfl).cons rfl).cons
        (depth_of_isOrdinary hgeneral)
    · rw [List.cons_append, List.filterMap_cons, hsource] at htarget
      have htarget : target ∈ [base + length + 7] := htarget
      rw [List.mem_singleton.1 htarget]
      exact ⟨length + 7, by omega, .inr (by simp only [List.length_cons, List.length_nil]; omega)⟩
  | assertion =>
    refine ⟨[_, _], [_], rfl, rfl, ((nil.cons rfl).cons rfl).cons rfl, fun target htarget => ?_⟩
    have htarget : target ∈ [base + length + 4] := htarget
    rw [List.mem_singleton.1 htarget]
    exact ⟨length + 4, by omega, .inr (by simp only [List.length_cons, List.length_nil]; omega)⟩
  -- a loop leads behind its last instruction, and from there to its top
  | whileLoop =>
    refine ⟨[_, _, _, _, _], [_], rfl, rfl, ?_, fun target htarget => ?_⟩
    · exact (((((nil.cons rfl).cons rfl).cons rfl).cons rfl).cons rfl).cons
        (depth_of_isOrdinary hgeneral)
    · rw [List.cons_append, List.filterMap_cons, hsource] at htarget
      have htarget : target ∈ [base + length + 8, base] := htarget
      rw [List.mem_cons, List.mem_singleton] at htarget
      rcases htarget with rfl | rfl
      · exact ⟨length + 8, by omega, .inr (by simp only [List.length_cons, List.length_nil]; omega)⟩
      · exact ⟨0, rfl, .inl (Nat.zero_le _)⟩
  | forLoop =>
    refine ⟨[_, _, _], [_, _, _, _, _, _], rfl, rfl, ?_, fun target htarget => ?_⟩
    · exact ((((((((nil.cons rfl).cons rfl).cons rfl).cons rfl).cons rfl).cons rfl).cons rfl).cons
        rfl).cons (depth_of_isOrdinary hcount)
    · rw [List.cons_append, List.filterMap_cons, hcounter] at htarget
      have htarget : target ∈ [base + length + 11, base + 2] := htarget
      rw [List.mem_cons, List.mem_singleton] at htarget
      rcases htarget with rfl | rfl
      · exact ⟨length + 11, by omega, .inr (by simp only [List.length_cons, List.length_nil]; omega)⟩
      · exact ⟨2, rfl, .inl (by simp)⟩
  | _ => cases h

/-! ## 3. Trees -/

private theorem translate_balanced_aux :
    (∀ node base, Balanced (translate base node)) ∧
      ∀ nodes base, Balanced (translateAll base nodes) := by
  refine walk_induction ?_ ?_ ?_ ?_
  · intro node hforeign base
    rw [translate_foreign hforeign]
    exact balanced_nil
  · intro node c hkind ih base
    rw [translate_construct hkind]
    cases hdescends : descends c with
    | true =>
      obtain ⟨before, behind, hcode⟩ := exists_surrounds hdescends node base (sizeAll (body node))
      obtain ⟨hbefore, hbehind⟩ := flat_append.1 hcode.flat
      have hscope := (ih (base + openingSize c node)).scope
      rw [hcode.opening, hcode.closing]
      simpa using (hbefore.balanced.append hscope).append hbehind.balanced
    | false =>
      rw [body_of_not_descends hkind hdescends, closing_of_not_descends hdescends]
      simpa [translateAll] using opening_balanced hdescends node base _
  · intro base
    exact balanced_nil
  · intro node nodes hnode hnodes base
    exact (hnode base).append (hnodes _)

theorem translate_balanced (base : Nat) (node : Node) : Balanced (translate base node) :=
  translate_balanced_aux.1 node base

theorem translateAll_balanced (base : Nat) (nodes : List Node) : Balanced (translateAll base nodes) :=
  translate_balanced_aux.2 nodes base

theorem depth_unpatched (instruction : Instruction) :
    depth [unpatched instruction] = depth [instruction] := by
  cases instruction <;> rfl

private theorem emitted_balanced_aux :
    (∀ node base, Balanced (emitted base node)) ∧ ∀ nodes base, Balanced (emittedAll base nodes) := by
  refine walk_induction ?_ ?_ ?_ ?_
  · intro node hforeign base
    rw [emitted_foreign hforeign]
    exact balanced_nil
  · intro node c hkind ih base
    cases hpasses : passes (reached node) with
    | true =>
      rw [emitted_of_passes hpasses]
      exact translate_balanced base node
    | false =>
      have hdescends := (descends_of_not_passes hkind hpasses).1
      obtain ⟨before, behind, hcode⟩ := exists_surrounds hdescends node base 0
      have hbefore := (flat_append.1 hcode.flat).1.balanced.map depth_unpatched
      -- the way out of the body leads behind its scope, and no further
      have hscope := (ih (base + openingSize c node)).scope
      rw [body_of_descends hkind hdescends] at hscope
      rw [emitted_of_not_passes hkind hpasses, hcode.opening]
      simpa [unpatched] using hbefore.append hscope
  · intro base
    exact balanced_nil
  · intro node nodes hnode hnodes base
    rw [emittedAll]
    split
    · exact (hnode base).append (hnodes _)
    · exact (hnode base).append balanced_nil

theorem emitted_balanced (base : Nat) (node : Node) : Balanced (emitted base node) :=
  emitted_balanced_aux.1 node base

theorem emittedAll_balanced (base : Nat) (nodes : List Node) : Balanced (emittedAll base nodes) :=
  emitted_balanced_aux.2 nodes base

/-! ## 4. Scopes within scopes -/

/-- Computations that lower nodes, or the children of nodes, in scopes within scopes. What is done
next may depend on how a computation ended, and a fault may be passed on or not. -/
inductive Nested : Lower Unit → Prop where
  | lower (node : Node) : Nested (lower node)
  | children (node : Node) : Nested (lowerAll node.children)
  | scope {body : Lower Unit} (h : Nested body) : Nested (inScope body)
  | done (result : Except Fault Unit) : Nested (ExceptT.mk (pure result))
  | next {x : Lower Unit} {rest : Except Fault Unit → Lower Unit} (h : Nested x)
    (hrest : ∀ result, Nested (rest result)) : Nested (ExceptT.lift x.run >>= rest)

/-- What is appended to the code is well-bracketed, whether or not the computation stops. -/
theorem nested_appends_balanced {x : Lower Unit} (h : Nested x) (s : State) :
    ∃ block : List Instruction, (x.run s).2.code = s.code ++ block.toArray ∧ Balanced block := by
  induction h generalizing s with
  | lower node =>
    rw [lower_ends node s]
    exact ⟨_, rfl, emitted_balanced _ node⟩
  | children node =>
    rw [lowerAll_ends node.children s]
    exact ⟨_, rfl, emittedAll_balanced _ node.children⟩
  | @scope body _ ih =>
    obtain ⟨block, hcode, hblock⟩ := ih (s.extend [.scopeEnter] [])
    refine ⟨.scopeEnter :: block ++ [.scopeExit], ?_, hblock.scope⟩
    rw [inScope_run]
    change (body.run (s.extend [.scopeEnter] [])).2.code ++ [Instruction.scopeExit].toArray = _
    rw [hcode]
    simp [State.extend]
  | done result => exact ⟨[], (Array.append_empty).symm, balanced_nil⟩
  | @next x rest _ _ ih ihrest =>
    obtain ⟨block, hcode, hblock⟩ := ih s
    obtain ⟨block', hcode', hblock'⟩ := ihrest (x.run s).1 (x.run s).2
    refine ⟨block ++ block', ?_, hblock.append hblock'⟩
    rw [Stoppable.run_bind, Stoppable.run_lift]
    change ((rest (x.run s).1).run (x.run s).2).2.code = _
    simp only [hcode', hcode, Array.append_assoc, List.append_toArray]

/-- A loop with an element in its `if` that is no construct. -/
def strayLoop : Node := .ofElement {
  tag := "while"
  attributes := .ofList [("name", "n"), ("value", "0")]
  children := [
    { tag := "if"
      attributes := .ofList [("item", "x"), ("eval", "limit")]
      children := [{ tag := "label", attributes := .ofList [("name", "here")] }, { tag := "note" }] },
    { tag := "return" }] }

/-- The loop in a scope, and what comes behind it though it stops. -/
theorem strayLoop_appends_balanced :
    let x : Lower Unit := inScope (do
      let result ← ExceptT.lift (lower strayLoop).run
      let _ ← ExceptT.lift (lower restartedLoop).run
      ExceptT.mk (pure result))
    (x.run {}).1 = .error (.unsupported "note" ⟨"while", [("if", 0), ("note", 1)]⟩) ∧
      ∃ block : List Instruction, (x.run {}).2.code = #[] ++ block.toArray ∧ Balanced block := by
  intro x
  have hnested : Nested x :=
    .scope (.next (.lower strayLoop) fun result => .next (.lower restartedLoop) fun _ => .done result)
  exact ⟨rfl, nested_appends_balanced hnested {}⟩

end TreeScript.Lowering
