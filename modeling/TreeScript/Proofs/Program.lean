import TreeScript.Proofs.WellFormed

/-!
# The code of a script

The nodes of a script are lowered from an empty state, and an instruction is put behind their code.
What is reported then has no error just when the nodes are well-formed. In that case the code is the
translation of the nodes with every goto linked to its label, and no target is pending or lies
outside of the code.
-/

namespace TreeScript.Lowering

/-! ## 1. Linked code -/

/-- The addresses of the labels of nodes. -/
def labelTable (nodes : List Node) : SortedMap Nat :=
  defineAll ∅ (placedAll 0 nodes)

/-- The code of nodes before it is linked. -/
def unlinked (nodes : List Node) : List Instruction :=
  translateAll 0 nodes ++ [.nop]

/-- The code of nodes with every goto linked to its label. -/
def linked (nodes : List Node) : List Instruction :=
  (unlinked nodes).map (Instruction.link (labelTable nodes))

/-- What is reported about nodes. -/
def reports (order : LabelOrder) (nodes : List Node) : List Diagnostic :=
  remarksAll ∅ (placedAll 0 nodes) ++
    ((awaited (placedAll 0 nodes)).flatMap (undefinedRemarks (labelTable nodes)) ++
      unusedRemarks order (labelTable nodes) (awaited (placedAll 0 nodes)))

theorem length_unlinked (nodes : List Node) : (unlinked nodes).length = sizeAll nodes + 1 := by
  rw [unlinked, List.length_append, length_translateAll, List.length_singleton]

theorem gotosFrom_unlinked (nodes : List Node) :
    gotosFrom 0 (unlinked nodes) = (placedAll 0 nodes).filterMap gotoAt? := by
  rw [unlinked, gotosFrom_append, gotosFrom_translateAll, gotosFrom_eq_nil, List.append_nil]
  intro instruction h
  rw [List.mem_singleton.1 h]
  rfl

/-- Every fixup waits at a goto of its own. -/
theorem waiting_awaited (nodes : List Node) :
    Waiting (unlinked nodes).toArray (awaited (placedAll 0 nodes)) := by
  have hempty : Waiting ({} : State).code ({} : State).fixups.toList := waiting_nil #[]
  have hwaiting := hempty.advance (gotosFrom_unlinked nodes)
  simpa [State.advance] using hwaiting

theorem snd_mem_reachedAll {base : Nat} {nodes : List Node} {place : Nat × Node}
    (h : place ∈ placedAll base nodes) : place.2 ∈ reachedAll nodes := by
  rw [← placedAll_map_snd base nodes]
  exact List.mem_map_of_mem h

theorem get?_labelTable (nodes : List Node) (name : String) :
    (labelTable nodes).get? name = (labelsOf (placedAll 0 nodes)).lookup name := by
  rw [labelTable, get?_defineAll, SortedMap.get?_empty, Option.none_or]

/-- An address in the table is the place of a label node of that name. -/
theorem exists_place_of_label {nodes : List Node} {name : String} {address : Nat}
    (h : (labelTable nodes).get? name = some address) :
    ∃ place ∈ placedAll 0 nodes, labelName? place.2 = some name ∧ place.1 = address := by
  rw [get?_labelTable] at h
  obtain ⟨before, after, hlabels, -⟩ := List.lookup_eq_some_iff.1 h
  have hmem : (name, address) ∈ labelsOf (placedAll 0 nodes) := by
    rw [hlabels]
    exact List.mem_append_right _ List.mem_cons_self
  obtain ⟨place, hplace, hentry⟩ := List.mem_filterMap.1 hmem
  obtain ⟨label, hlabel, heq⟩ := Option.map_eq_some_iff.1 hentry
  cases heq
  exact ⟨place, hplace, hlabel, rfl⟩

/-- Every goto of the code is pending, and it is the one of a goto node. -/
theorem exists_place_of_goto {nodes : List Node} {address : Nat} {label : String}
    {target : Option Nat} (hat : (unlinked nodes)[address]? = some (.goto label target)) :
    target = none ∧ ∃ place ∈ placedAll 0 nodes, place.2.kind = .construct .goto ∧
      place.1 = address ∧ operand place.2 "label" = label := by
  have hgoto : (address, label, target) ∈ (placedAll 0 nodes).filterMap gotoAt? := by
    rw [← gotosFrom_unlinked, mem_gotosFrom]
    exact ⟨Nat.zero_le _, hat⟩
  obtain ⟨place, hplace, hgoto⟩ := List.mem_filterMap.1 hgoto
  rw [gotoAt?] at hgoto
  split at hgoto
  next hkind =>
    cases hgoto
    exact ⟨rfl, place, hplace, hkind, rfl, rfl⟩
  next => cases hgoto

/-- But for gotos, the code has no pending targets, and none that lies outside of it. -/
theorem unlinked_settled {nodes : List Node} {instruction : Instruction}
    (h : instruction ∈ unlinked nodes) :
    instruction.goto?.isSome ∨ Settled 0 (sizeAll nodes) instruction := by
  rcases List.mem_append.1 h with htranslated | hnop
  · rw [← Nat.zero_add (sizeAll nodes)]
    exact translateAll_settled htranslated
  · rw [List.mem_singleton.1 hnop]
    exact .inr (settled_of_isPlain rfl _ _)

/-- Whether or not they are linked, instructions lead to addresses of the code. -/
theorem target_le_of_link {nodes : List Node} {instruction : Instruction}
    (h : instruction ∈ unlinked nodes) :
    (∀ target ∈ instruction.target?, target ≤ sizeAll nodes) ∧
      ∀ target ∈ (instruction.link (labelTable nodes)).target?, target ≤ sizeAll nodes := by
  rcases unlinked_settled h with hgoto | hsettled
  · obtain ⟨goto, hgoto⟩ := Option.isSome_iff_exists.1 hgoto
    obtain ⟨address, hat⟩ := List.mem_iff_getElem?.1 h
    rw [Instruction.goto?_eq_some hgoto] at hat ⊢
    obtain ⟨htarget, -⟩ := exists_place_of_goto hat
    rw [htarget]
    refine ⟨fun target htarget => ?_, fun target htarget => ?_⟩
    · cases htarget
    · -- a linked goto leads to a label, which stands before the last instruction
      obtain ⟨place, hplace, -, rfl⟩ := exists_place_of_label htarget
      have hle := placedAll_le hplace
      omega
  · rw [Instruction.link_of_goto?_eq_none hsettled.no_goto]
    exact ⟨fun target htarget => (hsettled.within target htarget).2,
      fun target htarget => (hsettled.within target htarget).2⟩

/-! ## 2. Lowering and resolving -/

/-- The state behind the nodes of a script and the instruction that is put behind them. -/
theorem advance_unlinked (nodes : List Node) (order : LabelOrder) (d : Diagnostics) :
    ({ order, diagnostics := d } : State).advance (placedAll 0 nodes) (unlinked nodes) =
      { code := (unlinked nodes).toArray
        labels := labelTable nodes
        order
        fixups := (awaited (placedAll 0 nodes)).toArray
        diagnostics := d.reportAll (remarksAll ∅ (placedAll 0 nodes)) } := by
  simp only [State.advance, Array.empty_append, labelTable]

/-- Lowers nodes, puts an instruction behind them and links their gotos. -/
def lowerAndLink (nodes : List Node) : Lower Unit := do
  lowerAll nodes
  emit .nop
  resolve

/-- Nodes that are all constructs are lowered and linked without a fault. -/
theorem lowerAndLink_run {nodes : List Node} (h : ∀ n ∈ reachedAll nodes, isConstruct n)
    (order : LabelOrder) (d : Diagnostics) :
    (lowerAndLink nodes).run { order, diagnostics := d } =
      (.ok (), {
        code := linkAll (labelTable nodes) (unlinked nodes).toArray (awaited (placedAll 0 nodes))
        labels := labelTable nodes
        order
        fixups := #[]
        diagnostics := d.reportAll (reports order nodes) }) := by
  rw [lowerAndLink, Stoppable.run_bind, lowerAll_lowers h]
  -- the code was empty before, so the nodes are placed from address zero on
  change (do emit .nop; resolve : Lower Unit).run
    (({ order, diagnostics := d } : State).advance (placedAll 0 nodes) (translateAll 0 nodes)) = _
  rw [Stoppable.run_bind, Stoppable.run_liftM, emit_apply, State.advance_extend, ← unlinked,
    advance_unlinked]
  simp only
  rw [resolve_run (waiting_awaited nodes)]
  simp only [reports, Diagnostics.reportAll_append]

/-- Nodes with a foreign one among them are not. -/
theorem lowerAndLink_stops {nodes : List Node} {stop : Node}
    (h : foreign? (reachedAll nodes) = some stop) :
    Stops (lowerAndLink nodes) (.unsupported stop.tag stop.trail) :=
  (lowerAll_stops h).bind _

/-! ## 3. Well-formed nodes -/

theorem WellFormed.isConstruct {nodes : List Node} (h : WellFormed nodes) :
    ∀ n ∈ reachedAll nodes, isConstruct n := by
  intro n hn
  obtain ⟨c, hkind, -⟩ := h.complete n hn
  exact isConstruct_iff.2 ⟨c, hkind⟩

theorem labelName?_eq_some {node : Node} {name : String} :
    labelName? node = some name ↔
      node.kind = .construct .label ∧ node.attribute? "name" = some name := by
  unfold labelName?
  by_cases hkind : node.kind = .construct .label
  · rw [if_pos hkind]
    exact (and_iff_right hkind).symm
  · rw [if_neg hkind]
    simp [hkind]

theorem labelNames_eq (nodes : List Node) :
    labelNames (reachedAll nodes) = (labelsOf (placedAll 0 nodes)).map Prod.fst := by
  rw [← placedAll_map_snd 0 nodes, labelNames, labelsOf, List.filterMap_map, List.map_filterMap]
  simp [Function.comp_def]

/-- The names with an address are those of labels. -/
theorem contains_labelTable {nodes : List Node} {name : String} :
    (labelTable nodes).contains name ↔ name ∈ labelNames (reachedAll nodes) := by
  rw [SortedMap.contains, get?_labelTable, labelNames_eq, List.lookup_isSome_iff, List.mem_map]
  refine exists_congr fun label => and_congr_right fun _ => ?_
  rw [beq_iff_eq, eq_comm]

/-- The fixups ask for the labels of the gotos. -/
theorem awaited_labels (nodes : List Node) :
    (awaited (placedAll 0 nodes)).map Fixup.label = gotoLabels (reachedAll nodes) := by
  rw [← placedAll_map_snd 0 nodes, gotoLabels, awaited, List.filterMap_map, List.map_filterMap]
  simp [Function.comp_def]

/-- What is reported about constructs has no error just when they are well-formed. -/
theorem errorless_reports {nodes : List Node} (h : ∀ n ∈ reachedAll nodes, isConstruct n)
    (order : LabelOrder) : Errorless (reports order nodes) ↔ WellFormed nodes := by
  have hplaces : (∀ place ∈ placedAll 0 nodes, Errorless (remarks place.2)) ↔
      ∀ n ∈ reachedAll nodes, ∃ c, n.kind = .construct c ∧ Complete c n := by
    rw [← placedAll_map_snd 0 nodes, List.forall_mem_map]
    -- a construct is complete as the construct it is, and as no other
    refine forall₂_congr fun place hplace => ?_
    obtain ⟨c, hkind⟩ := isConstruct_iff.1 (h place.2 (snd_mem_reachedAll hplace))
    simp [errorless_remarks hkind, hkind]
  have hlinked : (∀ fixup ∈ awaited (placedAll 0 nodes),
      Errorless (undefinedRemarks (labelTable nodes) fixup)) ↔
      ∀ label ∈ gotoLabels (reachedAll nodes), label ∈ labelNames (reachedAll nodes) := by
    rw [← awaited_labels, List.forall_mem_map]
    simp only [errorless_undefined, contains_labelTable]
  rw [reports, errorless_append, errorless_append, errorless_flatMap, errorless_remarksAll,
    placedAll_map_snd, hplaces, hlinked]
  constructor
  · rintro ⟨⟨hcomplete, hdistinct, -⟩, hgotos, -⟩
    exact ⟨hcomplete, hdistinct, hgotos⟩
  · rintro ⟨hcomplete, hdistinct, hgotos⟩
    exact ⟨⟨hcomplete, hdistinct, fun _ _ => rfl⟩, hgotos, errorless_unused _ _ _⟩

/-! ## 4. The code of well-formed nodes -/

section

variable {nodes : List Node} (h : WellFormed nodes)
include h

/-- A node that is reached has the attributes that its construct needs. -/
theorem WellFormed.attribute?_eq {node : Node} (hmem : node ∈ reachedAll nodes) {c : Construct}
    (hkind : node.kind = .construct c) {key : String} (hkey : key ∈ (needs c).attributes) :
    node.attribute? key = some (operand node key) := by
  obtain ⟨c', hkind', hcomplete, -⟩ := h.complete node hmem
  cases hkind.symm.trans hkind'
  obtain ⟨value, hvalue⟩ := Option.isSome_iff_exists.1 (hcomplete.1 key hkey)
  have hvalue : node.attribute? key = some value := hvalue
  rw [operand, hvalue, Option.getD_some]

/-- Every goto of the code is pending, and a fixup waits at it. -/
theorem WellFormed.mem_awaited {address : Nat} {label : String} {target : Option Nat}
    (hat : (unlinked nodes)[address]? = some (.goto label target)) :
    target = none ∧ ⟨label, address⟩ ∈ awaited (placedAll 0 nodes) := by
  obtain ⟨htarget, place, hplace, hkind, rfl, rfl⟩ := exists_place_of_goto hat
  refine ⟨htarget, List.mem_filterMap.2 ⟨place, hplace, ?_⟩⟩
  have hlabel := h.attribute?_eq (snd_mem_reachedAll hplace) hkind (List.mem_singleton.2 rfl)
  rw [gotoLabel?, if_pos hkind, hlabel, Option.map_some]

/-- Resolving links all of the code. -/
theorem WellFormed.linkAll_eq :
    linkAll (labelTable nodes) (unlinked nodes).toArray (awaited (placedAll 0 nodes)) =
      (linked nodes).toArray := by
  rw [linkAll_eq_map, linked, List.map_toArray]
  intro address label target hat
  exact ⟨_, (h.mem_awaited (by simpa using hat)).2, rfl⟩

/-- A label that a goto asks for has an address, and it is the place of a label node of that name. -/
theorem WellFormed.exists_label {label : String} (hlabel : label ∈ gotoLabels (reachedAll nodes)) :
    ∃ place ∈ placedAll 0 nodes, labelName? place.2 = some label ∧
      (labelTable nodes).get? label = some place.1 := by
  obtain ⟨address, haddress⟩ :=
    Option.isSome_iff_exists.1 (contains_labelTable.2 (h.resolved label hlabel))
  obtain ⟨place, hplace, hname, rfl⟩ := exists_place_of_label haddress
  exact ⟨place, hplace, hname, haddress⟩

/-- The label of a goto of the code has an address. -/
theorem WellFormed.exists_address {instruction : Instruction} (hmem : instruction ∈ unlinked nodes)
    {goto : String × Option Nat} (hgoto : instruction.goto? = some goto) :
    ∃ address, (labelTable nodes).get? goto.1 = some address := by
  obtain ⟨place, hat⟩ := List.mem_iff_getElem?.1 hmem
  rw [Instruction.goto?_eq_some hgoto] at hat
  have hlabel : goto.1 ∈ gotoLabels (reachedAll nodes) := by
    rw [← awaited_labels]
    exact List.mem_map_of_mem (h.mem_awaited hat).2
  obtain ⟨label, -, -, haddress⟩ := h.exists_label hlabel
  exact ⟨label.1, haddress⟩

/-- A goto of the code is linked to the place of a label node. -/
theorem WellFormed.link_goto {address : Nat} {label : String} {target : Option Nat}
    (hat : (unlinked nodes)[address]? = some (.goto label target)) :
    ∃ place ∈ placedAll 0 nodes, labelName? place.2 = some label ∧
      Instruction.link (labelTable nodes) (.goto label target) = .goto label (some place.1) := by
  obtain ⟨rfl, hfixup⟩ := h.mem_awaited hat
  have hlabel : label ∈ gotoLabels (reachedAll nodes) := by
    rw [← awaited_labels]
    exact List.mem_map_of_mem hfixup
  obtain ⟨place, hplace, hname, haddress⟩ := h.exists_label hlabel
  exact ⟨place, hplace, hname, congrArg (Instruction.goto label) haddress⟩

theorem WellFormed.linked_goto {address : Nat} {label : String} {target : Option Nat}
    (hat : (linked nodes)[address]? = some (.goto label target)) :
    ∃ place ∈ placedAll 0 nodes, labelName? place.2 = some label ∧ target = some place.1 := by
  rw [linked, List.getElem?_map, Option.map_eq_some_iff] at hat
  obtain ⟨original, horiginal, hlink⟩ := hat
  -- linking makes no gotos, so there was one before
  have hkept := Instruction.goto?_link (labelTable nodes) original
  rw [hlink] at hkept
  obtain ⟨goto, hgoto, heq⟩ := Option.map_eq_some_iff.1 hkept.symm
  cases heq
  rw [Instruction.goto?_eq_some hgoto] at horiginal hlink
  obtain ⟨place, hplace, hname, hlinked⟩ := h.link_goto horiginal
  rw [hlink, Instruction.goto.injEq] at hlinked
  exact ⟨place, hplace, hname, hlinked.2⟩

/-- No target of the linked code is pending or lies outside of it. -/
theorem WellFormed.linked_closed {instruction : Instruction} (hmem : instruction ∈ linked nodes) :
    (instruction.isPatchable → instruction.target?.isSome) ∧
      ∀ target ∈ instruction.target?, target < (linked nodes).length := by
  have hlength : (linked nodes).length = sizeAll nodes + 1 := by
    rw [linked, List.length_map, length_unlinked]
  obtain ⟨original, horiginal, rfl⟩ := List.mem_map.1 hmem
  refine ⟨?_, fun target htarget => ?_⟩
  · rcases unlinked_settled horiginal with hgoto | hsettled
    · -- a goto got the place of its label
      obtain ⟨goto, hgoto⟩ := Option.isSome_iff_exists.1 hgoto
      obtain ⟨address, hat⟩ := List.mem_iff_getElem?.1 horiginal
      rw [Instruction.goto?_eq_some hgoto] at hat ⊢
      obtain ⟨place, -, -, hlink⟩ := h.link_goto hat
      rw [hlink]
      exact fun _ => rfl
    · rw [Instruction.link_of_goto?_eq_none hsettled.no_goto]
      exact hsettled.set
  · have hle := (target_le_of_link horiginal).2 target htarget
    omega

/-- The gotos of the linked code are the goto nodes, in document order and at their places. -/
theorem WellFormed.gotosFrom_linked :
    (gotosFrom 0 (linked nodes)).map (fun goto => (goto.1, some goto.2.1)) =
      ((placedAll 0 nodes).filter fun place => place.2.kind = .construct .goto).map
        fun place => (place.1, place.2.attribute? "label") := by
  have hpending : (placedAll 0 nodes).filterMap gotoAt? =
      ((placedAll 0 nodes).filter fun place => place.2.kind = .construct .goto).map
        fun place => (place.1, operand place.2 "label", none) := by
    rw [← List.filterMap_eq_map, List.filterMap_filter]
    congr 1
    funext place
    simp only [gotoAt?, decide_eq_true_eq, Function.comp_apply]
  rw [linked, gotosFrom_map_link, gotosFrom_unlinked, hpending, List.map_map, List.map_map]
  apply List.map_congr_left
  intro place hplace
  rw [List.mem_filter, decide_eq_true_eq] at hplace
  have hlabel := h.attribute?_eq (snd_mem_reachedAll hplace.1) hplace.2 (List.mem_singleton.2 rfl)
  rw [hlabel]
  rfl

/-- No two labels have the same name. -/
theorem WellFormed.labels_pairwise :
    ((reachedAll nodes).filter fun node => node.kind = .construct .label).Pairwise
      fun a b => a.attribute? "name" ≠ b.attribute? "name" := by
  have hdistinct := h.distinct
  rw [labelNames, List.Nodup, List.pairwise_filterMap] at hdistinct
  rw [List.pairwise_filter]
  refine hdistinct.imp_of_mem fun {a b} ha hb hne hlabel hlabel' => ?_
  rw [decide_eq_true_eq] at hlabel hlabel'
  have hname := h.attribute?_eq ha hlabel (List.mem_singleton.2 rfl)
  have hname' := h.attribute?_eq hb hlabel' (List.mem_singleton.2 rfl)
  rw [hname, hname', ne_eq, Option.some.injEq]
  exact hne _ (labelName?_eq_some.2 ⟨hlabel, hname⟩) _ (labelName?_eq_some.2 ⟨hlabel', hname'⟩)

/-- Only one node is the label of a name, and it stands at one place. -/
theorem WellFormed.label_unique {place other : Nat × Node} {name : String}
    (hplace : place ∈ placedAll 0 nodes) (hname : labelName? place.2 = some name)
    (hother : other ∈ placedAll 0 nodes) (hname' : labelName? other.2 = some name) :
    other = place := by
  have hdistinct := h.distinct
  rw [← placedAll_map_snd 0 nodes, labelNames, List.filterMap_map, List.Nodup,
    List.pairwise_filterMap, List.pairwise_iff_getElem] at hdistinct
  -- two positions in the list of places would give the name twice
  obtain ⟨i, hi, rfl⟩ := List.getElem_of_mem hplace
  obtain ⟨j, hj, rfl⟩ := List.getElem_of_mem hother
  rcases Nat.lt_trichotomy i j with hlt | rfl | hlt
  · exact absurd rfl (hdistinct i j hi hj hlt name hname name hname')
  · rfl
  · exact absurd rfl (hdistinct j i hj hi hlt name hname' name hname)

end

end TreeScript.Lowering
