import TreeScript.Proofs.Compile
import TreeScript.Proofs.Scopes

/-!
# Jumps and scopes

A goto may lead out of scopes or into them. All other jumps come from constructs with a body, and
lead around the scope of the body; so as many scopes are open where such a jump leads to as where it
stands.
-/

namespace TreeScript

namespace Lowering

/-! ## 1. Level code -/

/-- A code from an address on in which every jump that is no goto leads to a place at its own depth,
within the code or right behind it. -/
def Level (base : Nat) (code : List Instruction) : Prop :=
  ∀ (i : Nat) (instruction : Instruction) (target : Nat), code[i]? = some instruction →
    instruction.goto? = none → instruction.target? = some target →
    ∃ place, target = base + place ∧ place ≤ code.length ∧
      depth (code.take i) = depth (code.take place)

theorem level_of_no_target (base : Nat) {code : List Instruction}
    (h : ∀ instruction ∈ code, instruction.goto? = none → instruction.target? = none) :
    Level base code := by
  intro i instruction target hat hgoto htarget
  rw [h instruction (List.mem_of_getElem? hat) hgoto] at htarget
  cases htarget

theorem Level.append {base : Nat} {first second : List Instruction} (h : Level base first)
    (h' : Level (base + first.length) second) : Level base (first ++ second) := by
  intro i instruction target hat hgoto htarget
  by_cases hi : i < first.length
  · rw [List.getElem?_append_left hi] at hat
    obtain ⟨place, heq, hle, hdepth⟩ := h i instruction target hat hgoto htarget
    refine ⟨place, heq, by rw [List.length_append]; omega, ?_⟩
    rwa [List.take_append_of_le_length (Nat.le_of_lt hi), List.take_append_of_le_length hle]
  · rw [List.getElem?_append_right (Nat.not_lt.1 hi)] at hat
    obtain ⟨place, heq, hle, hdepth⟩ := h' _ instruction target hat hgoto htarget
    -- what stands before the second part counts for both ends of the jump
    refine ⟨first.length + place, by omega, by rw [List.length_append]; omega, ?_⟩
    rw [List.take_append, List.take_of_length_le (Nat.not_lt.1 hi), depth_append, hdepth,
      List.take_append, List.take_of_length_le (Nat.le_add_right _ _), depth_append,
      Nat.add_sub_cancel_left]

section Scope

variable {before body behind : List Instruction}

/-- Before the scope of a body and behind it the depth is that of the start. -/
theorem depth_take_outside (hflat : Flat (before ++ behind)) (hbody : Balanced body) {n : Nat}
    (h : n ≤ before.length ∨ before.length + body.length + 2 ≤ n) :
    depth ((before ++ .scopeEnter :: body ++ .scopeExit :: behind).take n) = 0 := by
  obtain ⟨hbefore, hbehind⟩ := flat_append.1 hflat
  rcases h with h | h
  · rw [List.append_assoc, List.take_append_of_le_length h, hbefore.depth_take]
  · obtain ⟨m, rfl⟩ := Nat.exists_eq_add_of_le h
    have hscope : before.length + body.length + 2 + m - (before ++ .scopeEnter :: body).length =
        m + 1 := by
      rw [List.length_append, List.length_cons]
      omega
    rw [List.take_append, List.take_of_length_le (by rw [List.length_append, List.length_cons]; omega),
      hscope, List.take_succ_cons, depth_append, depth_append, depth_cons, depth_cons .scopeExit,
      hbefore.depth_eq, hbody.closed, hbehind.depth_take]
    rfl

/-- Inside the scope it is one more than in the body. -/
theorem depth_take_inside (hflat : Flat (before ++ behind)) {n : Nat} (h : n ≤ body.length) :
    depth ((before ++ .scopeEnter :: body ++ .scopeExit :: behind).take (before.length + 1 + n)) =
      1 + depth (body.take n) := by
  have hn : before.length + 1 + n - before.length = n + 1 := by omega
  rw [List.append_assoc, List.take_append, List.take_of_length_le (by omega), hn, List.cons_append,
    List.take_succ_cons, List.take_append_of_le_length h, depth_append, depth_cons,
    (flat_append.1 hflat).1.depth_eq]
  exact Int.zero_add _

/-- An instruction with a target stands outside of the scope or in the body. -/
theorem getElem?_scope {i target : Nat} {instruction : Instruction}
    (hat : (before ++ .scopeEnter :: body ++ .scopeExit :: behind)[i]? = some instruction)
    (htarget : instruction.target? = some target) :
    (instruction ∈ before ++ behind ∧
        (i ≤ before.length ∨ before.length + body.length + 2 ≤ i)) ∨
      ∃ n, i = before.length + 1 + n ∧ body[n]? = some instruction := by
  rw [List.append_assoc] at hat
  by_cases hbefore : i < before.length
  · rw [List.getElem?_append_left hbefore] at hat
    exact .inl ⟨List.mem_append_left _ (List.mem_of_getElem? hat), .inl (Nat.le_of_lt hbefore)⟩
  obtain ⟨n, rfl⟩ := Nat.exists_eq_add_of_le (Nat.not_lt.1 hbefore)
  rw [List.getElem?_append_right (Nat.le_add_right _ _), Nat.add_sub_cancel_left] at hat
  cases n with
  | zero =>
    -- entering a scope has no target
    cases hat
    cases htarget
  | succ n =>
    rw [List.cons_append, List.getElem?_cons_succ] at hat
    by_cases hbody : n < body.length
    · rw [List.getElem?_append_left hbody] at hat
      exact .inr ⟨n, by omega, hat⟩
    obtain ⟨m, rfl⟩ := Nat.exists_eq_add_of_le (Nat.not_lt.1 hbody)
    rw [List.getElem?_append_right (Nat.le_add_right _ _), Nat.add_sub_cancel_left] at hat
    cases m with
    | zero =>
      cases hat
      cases htarget
    | succ m =>
      rw [List.getElem?_cons_succ] at hat
      exact .inl ⟨List.mem_append_right _ (List.mem_of_getElem? hat), .inr (by omega)⟩

theorem Level.scope {base : Nat} (h : Level (base + before.length + 1) body)
    (hflat : Flat (before ++ behind)) (hbody : Balanced body)
    (houtside : ∀ target ∈ (before ++ behind).filterMap Instruction.target?,
      ∃ place, target = base + place ∧ (place ≤ before.length ∨
        before.length + body.length + 2 ≤ place ∧
          place ≤ before.length + body.length + 2 + behind.length)) :
    Level base (before ++ .scopeEnter :: body ++ .scopeExit :: behind) := by
  intro i instruction target hat hgoto htarget
  have hlength : (before ++ .scopeEnter :: body ++ .scopeExit :: behind).length =
      before.length + body.length + 2 + behind.length := by
    simp only [List.length_append, List.length_cons]
    omega
  rcases getElem?_scope hat htarget with ⟨hmem, hi⟩ | ⟨n, rfl, hinside⟩
  · obtain ⟨place, heq, hplace⟩ := houtside target (List.mem_filterMap.2 ⟨_, hmem, htarget⟩)
    refine ⟨place, heq, by omega, ?_⟩
    rw [depth_take_outside hflat hbody hi,
      depth_take_outside hflat hbody (hplace.imp_right And.left)]
  · obtain ⟨place, heq, hle, hdepth⟩ := h n instruction target hinside hgoto htarget
    have hn : n < body.length := (List.getElem?_eq_some_iff.1 hinside).1
    refine ⟨before.length + 1 + place, by omega, by omega, ?_⟩
    rw [depth_take_inside hflat (Nat.le_of_lt hn), depth_take_inside hflat hle, hdepth]

end Scope

/-! ## 2. Trees -/

private theorem translate_level_aux :
    (∀ node base, Level base (translate base node)) ∧
      ∀ nodes base, Level base (translateAll base nodes) := by
  refine walk_induction ?_ ?_ ?_ ?_
  · intro node hforeign base
    rw [translate_foreign hforeign]
    exact level_of_no_target base (by simp)
  · intro node c hkind ih base
    rw [translate_construct hkind]
    cases hdescends : descends c with
    | true =>
      obtain ⟨before, behind, hcode⟩ := exists_surrounds hdescends node base (sizeAll (body node))
      have hopening := length_opening c node base (sizeAll (body node))
      rw [hcode.opening, List.length_append, List.length_singleton] at hopening
      have hbody := ih (base + openingSize c node)
      rw [← hopening, ← Nat.add_assoc] at hbody
      have houtside := hcode.outside
      rw [← length_translateAll (base + before.length + 1) (body node)] at houtside
      have hscope := hbody.scope hcode.flat (translateAll_balanced _ _) houtside
      rw [hcode.opening, hcode.closing, ← hopening, ← Nat.add_assoc]
      simpa using hscope
    | false =>
      rw [body_of_not_descends hkind hdescends, closing_of_not_descends hdescends, translateAll,
        List.append_nil, List.append_nil]
      refine level_of_no_target base fun instruction hmem hno => ?_
      by_cases hgoto : c = .goto
      · subst hgoto
        cases List.mem_singleton.1 hmem
        cases hno
      · exact Instruction.target?_of_isPlain
          (opening_allPlain hdescends hgoto node base _ instruction hmem)
  · intro base
    exact level_of_no_target base (by simp [translateAll])
  · intro node nodes hnode hnodes base
    rw [translateAll]
    refine (hnode base).append ?_
    rw [length_translate]
    exact hnodes _

theorem translateAll_level (base : Nat) (nodes : List Node) : Level base (translateAll base nodes) :=
  translate_level_aux.2 nodes base

/-! ## 3. Linked code -/

theorem depth_link (labels : SortedMap Nat) (instruction : Instruction) :
    depth [instruction.link labels] = depth [instruction] := by
  cases instruction with
  | goto label target => cases target <;> rfl
  | _ => rfl

/-- Linking gives gotos their targets, and leaves all other jumps and all scopes as they are. -/
theorem linked_level (nodes : List Node) : Level 0 (linked nodes) := by
  have hunlinked : Level 0 (unlinked nodes) :=
    (translateAll_level 0 nodes).append (level_of_no_target _ (by simp [Instruction.target?]))
  intro i instruction target hat hgoto htarget
  rw [linked, List.getElem?_map, Option.map_eq_some_iff] at hat
  obtain ⟨original, horiginal, rfl⟩ := hat
  have hno : original.goto? = none := by
    rwa [Instruction.goto?_link, Option.map_eq_none_iff] at hgoto
  rw [Instruction.link_of_goto?_eq_none hno] at htarget
  obtain ⟨place, heq, hle, hdepth⟩ := hunlinked i original target horiginal hno htarget
  refine ⟨place, heq, by rwa [linked, List.length_map], ?_⟩
  rw [linked, ← List.map_take, ← List.map_take, depth_map (depth_link _), depth_map (depth_link _),
    hdepth]

end Lowering

/-! ## 4. Executables -/

namespace Compiler

open Lowering

/-- In an executable as many scopes are open where a conditional jump, an assertion or a jump leads to
as where it stands. -/
theorem compile_jumps_keep_depth {grammar : Grammar} {document : Document} {order : LabelOrder}
    {session : Session} {executable : Executable}
    (h : (compile ⟨grammar, .standard⟩ document order session).1 = .ok executable)
    {address target : Nat}
    (hat : (∃ condition, executable.code[address]? = some (.condJump condition (some target))) ∨
      (∃ condition, executable.code[address]? = some (.assert condition (some target))) ∨
      executable.code[address]? = some (.jump target)) :
    depth (executable.code.toList.take address) = depth (executable.code.toList.take target) := by
  obtain ⟨header, code, -, rfl⟩ := compile_ok_iff.1 h
  simp only [List.getElem?_toArray] at hat ⊢
  obtain ⟨instruction, hinstruction, hgoto, htarget⟩ : ∃ instruction,
      (linked code.children)[address]? = some instruction ∧ instruction.goto? = none ∧
        instruction.target? = some target := by
    rcases hat with ⟨condition, hat⟩ | ⟨condition, hat⟩ | hat
    · exact ⟨_, hat, rfl, rfl⟩
    · exact ⟨_, hat, rfl, rfl⟩
    · exact ⟨_, hat, rfl, rfl⟩
  obtain ⟨place, heq, -, hdepth⟩ :=
    linked_level code.children address instruction target hinstruction hgoto htarget
  rw [hdepth, heq, Nat.zero_add]

/-- The jump of the `if` leads behind the scope that holds the goto. -/
theorem gotoLoop_jumps_keep_depth :
    ∃ header, (compile ⟨.standard, .standard⟩ gotoLoop .byName {}).1 = .ok ⟨header, gotoLoopCode⟩ ∧
      gotoLoopCode[11]? = some (.condJump .less (some 15)) ∧
      depth (gotoLoopCode.toList.take 11) = depth (gotoLoopCode.toList.take 15) ∧
      depth (gotoLoopCode.toList.take 13) = 1 := by
  obtain ⟨header, hrun⟩ := compile_gotoLoop
  have hat : gotoLoopCode[11]? = some (.condJump .less (some 15)) := by decide
  exact ⟨header, hrun, hat, compile_jumps_keep_depth hrun (.inl ⟨_, hat⟩), by decide⟩

end Compiler

end TreeScript
