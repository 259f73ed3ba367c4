import TreeScript.Proofs.Remarks

/-!
# Constructs without a body

A construct without a body cannot fail: it reports its remarks, emits its code, and a label or a
goto is recorded. The order in which it does these things does not show in the state behind it.
-/

namespace TreeScript.Lowering

/-! ## 1. Emitting and reporting -/

theorem emit_apply (instruction : Instruction) (s : State) :
    emit instruction s = ((), s.extend [instruction] []) := by
  simp only [State.extend, Diagnostics.reportAll_nil, ← Array.push_eq_append]
  rfl

theorem report_apply (entry : Diagnostic) (s : State) :
    report entry s = ((), s.extend [] [entry]) := by
  simp only [State.extend, Array.append_empty]
  rfl

theorem address_apply (s : State) : address s = (s.code.size, s) := rfl

/-! ## 2. Operands -/

theorem expected?_apply (node : Node) (key : String) (s : State) :
    expected? node key s = (node.attribute? key, s.extend [] (absence node key)) := by
  unfold expected? absence
  by_cases h : node.hasAttribute key
  · simp only [h, Bool.not_true, Bool.false_eq_true, if_false, if_true, State.extend_nil]
    rfl
  · simp only [h, Bool.not_false, if_true, Bool.false_eq_true, if_false, Stateful.bind_apply,
      report_apply, Stateful.pure_apply]

theorem expected_apply (node : Node) (key : String) (s : State) :
    expected node key s = (operand node key, s.extend [] (absence node key)) := by
  simp only [expected, Stateful.bind_apply, expected?_apply]
  rfl

theorem selectSource_apply (node : Node) (sources : Sources) (s : State) :
    selectSource node sources s = (sources.first? node, s.extend [] (sources.ignored node)) := by
  unfold selectSource Sources.first? Sources.ignored
  rcases sources.present node with _ | ⟨⟨key, instruction⟩, _ | ⟨next, rest⟩⟩
  · simp only [State.extend_nil]
    rfl
  · simp only [State.extend_nil]
    rfl
  · simp only [Stateful.bind_apply, report_apply]
    rfl

theorem emitSource_apply (node : Node) (sources : Sources) (s : State) :
    emitSource node sources s =
      ((), s.extend [sources.instruction node] (sources.remarks node)) := by
  unfold emitSource Sources.instruction Sources.remarks
  simp only [Stateful.bind_apply, selectSource_apply]
  unfold Sources.first? Sources.ignored
  rcases sources.present node with _ | ⟨⟨key, instruction⟩, rest⟩
  · simp only [List.head?_nil, Option.map_none, Option.getD_none, Stateful.bind_apply, report_apply,
      emit_apply, State.extend_extend, if_true, List.nil_append, List.append_nil]
  · simp only [List.head?_cons, Option.map_some, Option.getD_some, emit_apply, State.extend_extend,
      reduceCtorEq, if_false, List.nil_append, List.append_nil]

theorem conditionOf_apply (node : Node) (allowed : List Condition) (s : State) :
    conditionOf node allowed s =
      (comparison node allowed, s.extend [] (comparisonRemarks node allowed)) := by
  unfold conditionOf comparison comparisonRemarks
  cases node.attribute? "type" with
  | none =>
    simp only [State.extend_nil]
    rfl
  | some flag =>
    simp only
    cases (Condition.ofFlag? flag).filter (allowed.contains ·) with
    | none =>
      simp only [Stateful.bind_apply, report_apply, Option.isSome_none, Bool.false_eq_true, if_false]
      rfl
    | some condition =>
      simp only [Option.isSome_some, if_true, State.extend_nil]
      rfl

/-! ## 3. Variables and buffers -/

theorem lowerSet_apply (node : Node) (s : State) :
    lowerSet node s = ((), s.extend (setCode node) (setRemarks node)) := by
  simp only [lowerSet, Stateful.bind_apply, expected_apply, emitSource_apply, emit_apply,
    State.extend_extend, List.nil_append, List.append_nil]
  rfl

theorem lowerInput_apply (node : Node) (base length : Nat) (s : State) :
    lowerInput node s =
      ((), s.extend (scheme .input node base length).opening (constructRemarks .input node)) := by
  simp only [lowerInput, Stateful.bind_apply, expected_apply, emitSource_apply, emit_apply,
    State.extend_extend, List.nil_append, List.append_nil]
  rfl

theorem lowerMath_apply (node : Node) (base length : Nat) (s : State) :
    lowerMath node s =
      ((), s.extend (scheme .math node base length).opening (constructRemarks .math node)) := by
  simp only [lowerMath, Stateful.bind_apply, expected_apply, emitSource_apply, emit_apply,
    State.extend_extend, scheme, constructRemarks, List.append_assoc, List.cons_append,
    List.nil_append, List.append_nil]

/-- Emitting the instructions of a list, each with one behind it. -/
theorem forM_emit_pair (instructions : List Instruction) (behind : Instruction) (s : State) :
    (instructions.forM fun instruction => do emit instruction; emit behind) s =
      ((), s.extend (instructions.flatMap fun instruction => [instruction, behind]) []) := by
  induction instructions generalizing s with
  | nil =>
    rw [List.flatMap_nil, State.extend_nil]
    rfl
  | cons instruction rest ih =>
    rw [Stateful.forM_cons_apply, ih]
    simp only [Stateful.bind_apply, emit_apply, State.extend_extend, List.flatMap_cons,
      List.cons_append, List.nil_append]

theorem lowerBuffer_apply (node : Node) (s : State) :
    lowerBuffer node s = ((), s.extend (bufferCode node) (constructRemarks .buffer node)) := by
  unfold lowerBuffer
  simp only [Stateful.bind_apply, expected_apply]
  by_cases hclear : node.hasAttribute "clear"
  · simp only [hclear, if_true, Stateful.bind_apply, emit_apply, selectSource_apply, forM_emit_pair,
      Bool.not_true, Bool.false_and, Bool.false_eq_true, if_false, Stateful.pure_apply,
      State.extend_extend, bufferCode, constructRemarks, clearRemarks, List.append_nil,
      List.nil_append]
    rfl
  · simp only [hclear, Bool.false_eq_true, if_false, Stateful.bind_apply, selectSource_apply,
      forM_emit_pair, Bool.not_false, Bool.true_and, State.extend_extend, List.append_nil,
      List.nil_append]
    change (if (appendedTo node).isEmpty = true then _ else _ : Emit Unit) _ = _
    by_cases hempty : (appendedTo node).isEmpty
    · simp only [hempty, if_true, Stateful.bind_apply, report_apply, emit_apply, State.extend_extend,
        bufferCode, constructRemarks, clearRemarks, hclear, Bool.not_false, Bool.true_and,
        List.append_assoc, List.append_nil, List.nil_append, Bool.false_eq_true, if_false]
      rfl
    · simp only [hempty, Bool.false_eq_true, if_false, Stateful.pure_apply,
        bufferCode, constructRemarks, clearRemarks, hclear, Bool.not_false, Bool.true_and,
        List.append_nil, List.nil_append]
      rfl

/-! ## 4. Parameters and results -/

/-- Binding parameters takes the children one by one; one that binds nothing leaves no code. -/
theorem lowerParameters_apply (node : Node) (s : State) :
    lowerParameters node s = ((), s.extend (parameterCode node) (parameterRemarks node)) := by
  unfold lowerParameters parameterCode parameterRemarks
  induction node.children generalizing s with
  | nil =>
    rw [List.filter_nil, List.flatMap_nil, List.flatMap_nil, State.extend_nil]
    rfl
  | cons child children ih =>
    rw [Stateful.forM_cons_apply, ih]
    by_cases hset : child.kind = .construct .set
    · simp only [hset, if_true, lowerSet_apply, State.extend_extend, List.flatMap_cons,
        List.filter_cons, decide_true]
    · simp only [hset, if_false, report_apply, State.extend_extend, List.flatMap_cons,
        List.filter_cons, decide_false, Bool.false_eq_true, List.nil_append]

theorem storeResult_apply (node : Node) (s : State) :
    storeResult node s = ((), s.extend ((node.attribute? "result").toList.map .store) []) := by
  unfold storeResult
  cases node.attribute? "result" with
  | none =>
    rw [Option.toList_none, List.map_nil, State.extend_nil]
    rfl
  | some result => exact emit_apply (.store result) s

/-! ## 5. Labels and gotos -/

theorem await_apply (label : String) (address : Nat) (s : State) :
    await label address s = ((), { s with fixups := s.fixups ++ [⟨label, address⟩].toArray }) := by
  rw [← Array.push_eq_append]
  rfl

theorem define_apply (name : String) (address : Nat) (s : State) :
    define name address s =
      (s.labels.get? name,
        { s with
          labels := if s.labels.contains name then s.labels else s.labels.insert name address }) := by
  cases hknown : s.labels.get? name with
  | some existing =>
    simp only [define, Stateful.bind_apply, Stateful.get_apply, SortedMap.contains, hknown,
      Option.isSome_some, if_true, Stateful.pure_apply]
  | none =>
    simp only [define, Stateful.bind_apply, Stateful.get_apply, SortedMap.contains, hknown,
      Option.isSome_none, Bool.false_eq_true, if_false]
    rfl

theorem lowerGoto_apply {node : Node} (hkind : node.kind = .construct .goto) (s : State) :
    lowerGoto node s =
      ((), s.advance [(s.code.size, node)] [.goto (operand node "label") none]) := by
  have hremarks : remarks node = absence node "label" := by
    rw [remarks, hkind]
    rfl
  have hname : labelName? node = none := by
    rw [labelName?, hkind]
    rfl
  have hlabel : gotoLabel? node = node.attribute? "label" := if_pos hkind
  simp only [lowerGoto, Stateful.bind_apply, expected?_apply, address_apply, emit_apply,
    State.extend_extend]
  rw [State.advance_singleton]
  cases hattribute : node.attribute? "label" with
  | none =>
    simp only [State.extend, defineAt, redefinition, hremarks, hname, hlabel, hattribute, operand,
      Option.map_none, Option.toList_none, Array.append_empty, List.append_nil, List.nil_append]
    rfl
  | some label =>
    simp only [State.extend, defineAt, redefinition, hremarks, hname, hlabel, hattribute, operand,
      await_apply, List.append_nil, List.nil_append]
    rfl

theorem lowerLabel_apply {node : Node} (hkind : node.kind = .construct .label) (s : State) :
    lowerLabel node s = ((), s.advance [(s.code.size, node)] []) := by
  have hremarks : remarks node = absence node "name" := by
    rw [remarks, hkind]
    rfl
  have hname : labelName? node = node.attribute? "name" := if_pos hkind
  have hlabel : gotoLabel? node = none := by
    rw [gotoLabel?, hkind]
    rfl
  simp only [lowerLabel, Stateful.bind_apply, expected?_apply]
  rw [State.advance_singleton]
  cases hattribute : node.attribute? "name" with
  | none =>
    simp only [State.extend, defineAt, redefinition, hremarks, hname, hlabel, hattribute,
      Option.map_none, Option.toList_none, Array.append_empty, List.append_nil]
    rfl
  | some name =>
    simp only [Stateful.bind_apply, address_apply, define_apply]
    -- a label that is known keeps its address and is remarked upon
    cases hknown : s.labels.get? name with
    | none =>
      simp only [State.extend, defineAt, redefinition, hremarks, hname, hlabel, hattribute, hknown,
        Option.map_none, Option.toList_none, Array.append_empty, List.append_nil]
      rfl
    | some first =>
      simp only [State.extend, defineAt, redefinition, hremarks, hname, hlabel, hattribute, hknown,
        Option.map_none, Option.toList_none, Array.append_empty, report_apply,
        Diagnostics.reportAll_append]

end TreeScript.Lowering
