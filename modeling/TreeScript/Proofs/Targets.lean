import TreeScript.Proofs.Remarks

/-!
# Targets of translated code

The code of a node jumps nowhere but into itself or right behind itself, and nothing in it is
pending but the gotos. The gotos stand at the places of the nodes they come from.
-/

namespace TreeScript

/-- The label and the target of a goto. -/
def Instruction.goto? : Instruction → Option (String × Option Nat)
  | .goto label target => some (label, target)
  | _ => none

/-- Whether an instruction has no target, neither now nor later. -/
def Instruction.isPlain (instruction : Instruction) : Bool :=
  !instruction.isPatchable && instruction.target?.isNone

/-- Whether an instruction does no more than compute: it has no target, and it neither enters nor
leaves a scope. -/
def Instruction.isOrdinary (instruction : Instruction) : Bool :=
  instruction.isPlain && instruction != .scopeEnter && instruction != .scopeExit

theorem Instruction.isPlain_of_isOrdinary {instruction : Instruction} (h : instruction.isOrdinary) :
    instruction.isPlain := by
  rw [isOrdinary, Bool.and_assoc, Bool.and_eq_true] at h
  exact h.1

theorem Instruction.goto?_of_isPlain {instruction : Instruction} (h : instruction.isPlain) :
    instruction.goto? = none := by
  cases instruction with
  | goto => cases h
  | _ => rfl

theorem Instruction.target?_of_isPlain {instruction : Instruction} (h : instruction.isPlain) :
    instruction.target? = none := by
  rw [isPlain, Bool.and_eq_true, Option.isNone_iff_eq_none] at h
  exact h.2

theorem Instruction.goto?_eq_some {instruction : Instruction} {goto : String × Option Nat}
    (h : instruction.goto? = some goto) : instruction = .goto goto.1 goto.2 := by
  cases instruction <;> cases h
  rfl

namespace Lowering

/-! ## 1. Code without targets -/

/-- Whether a code does no more than compute. -/
def AllOrdinary (code : List Instruction) : Prop :=
  ∀ instruction ∈ code, instruction.isOrdinary

theorem allOrdinary_nil : AllOrdinary [] := by
  intro instruction h
  cases h

theorem allOrdinary_cons {instruction : Instruction} {code : List Instruction} :
    AllOrdinary (instruction :: code) ↔ instruction.isOrdinary ∧ AllOrdinary code :=
  List.forall_mem_cons

theorem allOrdinary_append {first second : List Instruction} :
    AllOrdinary (first ++ second) ↔ AllOrdinary first ∧ AllOrdinary second :=
  List.forall_mem_append

theorem allOrdinary_flatMap {α : Type} {f : α → List Instruction} {xs : List α}
    (h : ∀ x ∈ xs, AllOrdinary (f x)) : AllOrdinary (xs.flatMap f) := by
  intro instruction hinstruction
  obtain ⟨x, hx, hinstruction⟩ := List.mem_flatMap.1 hinstruction
  exact h x hx instruction hinstruction

/-- A value that is chosen comes from an attribute that is a source. -/
theorem Sources.exists_of_first? {sources : Sources} {node : Node} {instruction : Instruction}
    (h : sources.first? node = some instruction) :
    ∃ source ∈ sources, ∃ value, node.attribute? source.1 = some value ∧
      instruction = source.2 value := by
  rw [Sources.first?, Option.map_eq_some_iff] at h
  obtain ⟨entry, hentry, rfl⟩ := h
  obtain ⟨source, hsource, hpresent⟩ := List.mem_filterMap.1 (List.mem_of_mem_head? hentry)
  obtain ⟨value, hvalue, rfl⟩ := Option.map_eq_some_iff.1 hpresent
  exact ⟨source, hsource, value, hvalue, rfl⟩

theorem Sources.first?_isOrdinary {sources : Sources}
    (hsources : ∀ source ∈ sources, ∀ value, (source.2 value).isOrdinary) {node : Node}
    {instruction : Instruction} (h : sources.first? node = some instruction) :
    instruction.isOrdinary := by
  obtain ⟨source, hsource, value, -, rfl⟩ := Sources.exists_of_first? h
  exact hsources source hsource value

theorem Sources.instruction_isOrdinary {sources : Sources}
    (hsources : ∀ source ∈ sources, ∀ value, (source.2 value).isOrdinary) (node : Node) :
    (sources.instruction node).isOrdinary := by
  rw [Sources.instruction]
  cases h : sources.first? node with
  | none => rfl
  | some instruction => exact Sources.first?_isOrdinary hsources h

theorem general_isOrdinary (node : Node) : (Sources.general.instruction node).isOrdinary := by
  apply Sources.instruction_isOrdinary
  simp [Sources.general, Instruction.isOrdinary, Instruction.isPlain, Instruction.isPatchable,
    Instruction.target?]

theorem count_isOrdinary (node : Node) : (Sources.count.instruction node).isOrdinary := by
  apply Sources.instruction_isOrdinary
  simp [Sources.count, Instruction.isOrdinary, Instruction.isPlain, Instruction.isPatchable,
    Instruction.target?]

theorem unreferenced_ordinary : ∀ source ∈ Sources.unreferenced, ∀ value,
    (source.2 value).isOrdinary := by
  simp [Sources.unreferenced, Instruction.isOrdinary, Instruction.isPlain, Instruction.isPatchable,
    Instruction.target?]

theorem setCode_allOrdinary (node : Node) : AllOrdinary (setCode node) := by
  rw [setCode, allOrdinary_cons, allOrdinary_cons]
  refine ⟨general_isOrdinary node, ?_, allOrdinary_nil⟩
  split <;> rfl

theorem parameterCode_allOrdinary (node : Node) : AllOrdinary (parameterCode node) :=
  allOrdinary_flatMap fun child _ => setCode_allOrdinary child

theorem bufferCode_allOrdinary (node : Node) : AllOrdinary (bufferCode node) := by
  have happended : AllOrdinary (appendedTo node) := by
    rw [appendedTo, allOrdinary_append]
    constructor
    · intro instruction h
      exact Sources.first?_isOrdinary unreferenced_ordinary (Option.mem_toList.1 h)
    · intro instruction h
      obtain ⟨text, -, rfl⟩ := List.mem_map.1 h
      rfl
  rw [bufferCode, allOrdinary_append, allOrdinary_append]
  refine ⟨⟨?_, allOrdinary_flatMap fun instruction h => ?_⟩, ?_⟩
  · split
    · exact allOrdinary_cons.2 ⟨rfl, allOrdinary_nil⟩
    · exact allOrdinary_nil
  · exact allOrdinary_cons.2 ⟨happended instruction h, allOrdinary_cons.2 ⟨rfl, allOrdinary_nil⟩⟩
  · split
    · exact allOrdinary_cons.2 ⟨rfl, allOrdinary_nil⟩
    · exact allOrdinary_nil

theorem resultCode_allOrdinary (node : Node) :
    AllOrdinary ((node.attribute? "result").toList.map .store) := by
  intro instruction h
  obtain ⟨result, -, rfl⟩ := List.mem_map.1 h
  rfl

/-- Whether no instruction of a code has a target. -/
def AllPlain (code : List Instruction) : Prop :=
  ∀ instruction ∈ code, instruction.isPlain

theorem AllOrdinary.plain {code : List Instruction} (h : AllOrdinary code) : AllPlain code :=
  fun instruction hmem => Instruction.isPlain_of_isOrdinary (h instruction hmem)

theorem callCode_allPlain (node : Node) {dispatch : List Instruction} (h : AllOrdinary dispatch) :
    AllPlain (callCode node dispatch) := by
  have hbound := (allOrdinary_append.2 ⟨parameterCode_allOrdinary node, h⟩).plain
  have hresult := (resultCode_allOrdinary node).plain
  rw [callCode, List.cons_append, List.cons_append]
  exact List.forall_mem_cons.2
    ⟨rfl, List.forall_mem_append.2 ⟨hbound, List.forall_mem_cons.2 ⟨rfl, hresult⟩⟩⟩

/-- A construct without a body is a goto, or a call, or does no more than compute. -/
theorem opening_cases {c : Construct} (h : descends c = false) (node : Node) (base length : Nat) :
    c = .goto ∨ AllOrdinary (scheme c node base length).opening ∨
      ∃ dispatch, AllOrdinary dispatch ∧
        (scheme c node base length).opening = callCode node dispatch := by
  have nil := allOrdinary_nil
  cases c with
  | block | ifThen | whileLoop | forLoop | assertion => cases h
  | goto => exact .inl rfl
  | set => exact .inr (.inl (setCode_allOrdinary node))
  | buffer => exact .inr (.inl (bufferCode_allOrdinary node))
  | input =>
    have hsource := Sources.instruction_isOrdinary unreferenced_ordinary node
    exact .inr (.inl (allOrdinary_cons.2 ⟨hsource, allOrdinary_cons.2 ⟨rfl, nil⟩⟩))
  | math =>
    have hrest : AllOrdinary [.moveRight, .fetch (operand node "left"),
        .arith (operand node "oper"),
        .store ((node.attribute? "output").getD (operand node "left"))] := by
      simp [AllOrdinary, Instruction.isOrdinary, Instruction.isPlain, Instruction.isPatchable,
        Instruction.target?]
    exact .inr (.inl (allOrdinary_cons.2 ⟨general_isOrdinary node, hrest⟩))
  | label => exact .inr (.inl nil)
  | ret => exact .inr (.inl (allOrdinary_cons.2 ⟨rfl, nil⟩))
  | call | exec | subroutine => exact .inr (.inr ⟨_, allOrdinary_cons.2 ⟨rfl, nil⟩, rfl⟩)
  | memberCall =>
    have hrest : AllOrdinary [.memberCall (operand node "method")] := allOrdinary_cons.2 ⟨rfl, nil⟩
    exact .inr (.inr ⟨_, allOrdinary_cons.2 ⟨rfl, hrest⟩, rfl⟩)

theorem opening_allPlain {c : Construct} (h : descends c = false) (hgoto : c ≠ .goto) (node : Node)
    (base length : Nat) : AllPlain (scheme c node base length).opening := by
  rcases opening_cases h node base length with hc | hordinary | ⟨dispatch, hdispatch, heq⟩
  · exact absurd hc hgoto
  · exact hordinary.plain
  · rw [heq]
    exact callCode_allPlain node hdispatch

/-! ## 2. Where code leads -/

/-- An instruction that is no goto, is not pending, and leads nowhere but between two addresses. -/
structure Settled (low high : Nat) (instruction : Instruction) : Prop where
  no_goto : instruction.goto? = none
  set : instruction.isPatchable → instruction.target?.isSome
  within : ∀ target, instruction.target? = some target → low ≤ target ∧ target ≤ high

theorem Settled.mono {low high low' high' : Nat} {instruction : Instruction}
    (h : Settled low high instruction) (hlow : low' ≤ low) (hhigh : high ≤ high') :
    Settled low' high' instruction := by
  refine ⟨h.no_goto, h.set, fun target htarget => ?_⟩
  obtain ⟨hge, hle⟩ := h.within target htarget
  exact ⟨Nat.le_trans hlow hge, Nat.le_trans hle hhigh⟩

theorem settled_of_isPlain {instruction : Instruction} (h : instruction.isPlain) (low high : Nat) :
    Settled low high instruction := by
  refine ⟨Instruction.goto?_of_isPlain h, fun hpatchable => ?_, fun target htarget => ?_⟩
  · rw [Instruction.isPlain, hpatchable] at h
    cases h
  · rw [Instruction.target?_of_isPlain h] at htarget
    cases htarget

theorem settled_of_target {instruction : Instruction} {low high target : Nat}
    (hgoto : instruction.goto? = none) (htarget : instruction.target? = some target)
    (hlow : low ≤ target) (hhigh : target ≤ high) : Settled low high instruction := by
  refine ⟨hgoto, fun _ => by rw [htarget]; rfl, fun other hother => ?_⟩
  rw [htarget, Option.some.injEq] at hother
  exact hother ▸ ⟨hlow, hhigh⟩

/-- Whether every instruction of a code is settled. -/
def AllSettled (low high : Nat) (code : List Instruction) : Prop :=
  ∀ instruction ∈ code, Settled low high instruction

theorem AllPlain.settled {code : List Instruction} (h : AllPlain code) (low high : Nat) :
    AllSettled low high code :=
  fun instruction hmem => settled_of_isPlain (h instruction hmem) low high

theorem allSettled_nil (low high : Nat) : AllSettled low high [] :=
  allOrdinary_nil.plain.settled low high

theorem AllSettled.cons_plain {low high : Nat} {instruction : Instruction}
    {code : List Instruction} (h : AllSettled low high code) (hplain : instruction.isPlain) :
    AllSettled low high (instruction :: code) :=
  List.forall_mem_cons.2 ⟨settled_of_isPlain hplain low high, h⟩

theorem AllSettled.cons_target {low high target : Nat} {instruction : Instruction}
    {code : List Instruction} (h : AllSettled low high code) (hgoto : instruction.goto? = none)
    (htarget : instruction.target? = some target) (hbounds : low ≤ target ∧ target ≤ high) :
    AllSettled low high (instruction :: code) :=
  List.forall_mem_cons.2 ⟨settled_of_target hgoto htarget hbounds.1 hbounds.2, h⟩

/-- The code before a body leads into itself, into the body or right behind the construct. -/
theorem opening_settled {c : Construct} (hgoto : c ≠ .goto) (node : Node) (base length : Nat) :
    AllSettled base (base + openingSize c node + length + closingSize c node)
      (scheme c node base length).opening := by
  have nil := allSettled_nil base (base + openingSize c node + length + closingSize c node)
  cases c with
  | goto => exact absurd rfl hgoto
  | block => exact nil.cons_plain rfl
  -- an `if` skips to the instruction behind its scope, a loop to the one behind all its code
  | ifThen =>
    have hbounds : base ≤ base + length + 7 ∧ base + length + 7 ≤ base + 6 + length + 2 := by omega
    exact ((((((nil.cons_plain rfl).cons_target rfl rfl hbounds).cons_plain rfl).cons_plain
      rfl).cons_plain rfl).cons_plain (Instruction.isPlain_of_isOrdinary (general_isOrdinary node)))
  | whileLoop =>
    have hbounds : base ≤ base + length + 8 ∧ base + length + 8 ≤ base + 6 + length + 2 := by omega
    exact ((((((nil.cons_plain rfl).cons_target rfl rfl hbounds).cons_plain rfl).cons_plain
      rfl).cons_plain rfl).cons_plain (Instruction.isPlain_of_isOrdinary (general_isOrdinary node)))
  | forLoop =>
    have hbounds : base ≤ base + length + 11 ∧ base + length + 11 ≤ base + 4 + length + 7 := by omega
    exact ((((nil.cons_plain rfl).cons_target rfl rfl hbounds).cons_plain rfl).cons_plain
      (Instruction.isPlain_of_isOrdinary (count_isOrdinary node)))
  | assertion =>
    have hbounds : base ≤ base + length + 4 ∧ base + length + 4 ≤ base + 3 + length + 2 := by omega
    exact ((nil.cons_plain rfl).cons_target rfl rfl hbounds).cons_plain rfl
  | _ => exact (opening_allPlain rfl hgoto node base length).settled _ _

/-- The code behind a body leads nowhere but to the top of its loop. -/
theorem closing_settled (c : Construct) (node : Node) (base length : Nat) :
    AllSettled base (base + openingSize c node + length + closingSize c node)
      (scheme c node base length).closing := by
  have nil := allSettled_nil base (base + openingSize c node + length + closingSize c node)
  cases c with
  | block => exact nil.cons_plain rfl
  | ifThen => exact (nil.cons_plain rfl).cons_plain rfl
  | assertion => exact (nil.cons_plain rfl).cons_plain rfl
  | whileLoop =>
    have hbounds : base ≤ base ∧ base ≤ base + 6 + length + 2 := by omega
    exact (nil.cons_target rfl rfl hbounds).cons_plain rfl
  | forLoop =>
    have hbounds : base ≤ base + 2 ∧ base + 2 ≤ base + 4 + length + 7 := by omega
    exact ((((((nil.cons_target rfl rfl hbounds).cons_plain rfl).cons_plain rfl).cons_plain
      rfl).cons_plain rfl).cons_plain rfl).cons_plain rfl
  | _ => exact nil

private theorem translate_settled_aux :
    (∀ node base, ∀ i ∈ translate base node, i.goto?.isSome ∨ Settled base (base + size node) i) ∧
      ∀ nodes base, ∀ i ∈ translateAll base nodes,
        i.goto?.isSome ∨ Settled base (base + sizeAll nodes) i := by
  -- a body stands between the opening and the closing, so its bounds lie within those of the node
  refine walk_induction ?_ ?_ ?_ ?_
  · intro node hforeign base i hi
    rw [translate_foreign hforeign] at hi
    cases hi
  · intro node c hkind ih base i hi
    have hsize : base + size node =
        base + openingSize c node + sizeAll (body node) + closingSize c node := by
      rw [size_construct hkind]
      omega
    rw [translate_construct hkind, List.mem_append, List.mem_append] at hi
    rw [hsize]
    rcases hi with (hi | hi) | hi
    · by_cases hgoto : c = .goto
      · subst hgoto
        rw [scheme, List.mem_singleton] at hi
        exact .inl (hi ▸ rfl)
      · exact .inr (opening_settled hgoto node base _ i hi)
    · exact (ih _ i hi).imp_right fun h => h.mono (by omega) (by omega)
    · exact .inr (closing_settled c node base _ i hi)
  · intro base i hi
    cases hi
  · intro node nodes hnode hnodes base i hi
    rw [translateAll, List.mem_append] at hi
    rw [sizeAll]
    rcases hi with hi | hi
    · exact (hnode base i hi).imp_right fun h => h.mono (by omega) (by omega)
    · exact (hnodes _ i hi).imp_right fun h => h.mono (by omega) (by omega)

/-- But for gotos, translated code is not pending and leads nowhere outside. -/
theorem translateAll_settled {base : Nat} {nodes : List Node} {instruction : Instruction}
    (h : instruction ∈ translateAll base nodes) :
    instruction.goto?.isSome ∨ Settled base (base + sizeAll nodes) instruction :=
  translate_settled_aux.2 nodes base instruction h

/-! ## 3. Gotos -/

/-- The gotos of a code that starts at an address: their addresses, labels and targets. -/
def gotosFrom (base : Nat) (code : List Instruction) : List (Nat × String × Option Nat) :=
  (code.zipIdx base).filterMap fun entry => entry.1.goto?.map (entry.2, ·)

theorem gotosFrom_append (base : Nat) (first second : List Instruction) :
    gotosFrom base (first ++ second) =
      gotosFrom base first ++ gotosFrom (base + first.length) second := by
  rw [gotosFrom, List.zipIdx_append, List.filterMap_append]
  rfl

theorem gotosFrom_eq_nil {base : Nat} {code : List Instruction}
    (h : ∀ instruction ∈ code, instruction.goto? = none) : gotosFrom base code = [] := by
  rw [gotosFrom, List.filterMap_eq_nil_iff]
  intro entry hentry
  rw [h entry.1 (List.fst_mem_of_mem_zipIdx hentry), Option.map_none]

/-- The pending goto of a placed node. -/
def gotoAt? (place : Nat × Node) : Option (Nat × String × Option Nat) :=
  if place.2.kind = .construct .goto then some (place.1, operand place.2 "label", none) else none

theorem gotosFrom_opening {c : Construct} {node : Node} (hkind : node.kind = .construct c)
    (base length : Nat) :
    gotosFrom base (scheme c node base length).opening = (gotoAt? (base, node)).toList := by
  by_cases hgoto : c = .goto
  · subst hgoto
    rw [gotoAt?, if_pos hkind]
    rfl
  · rw [gotoAt?, if_neg (by simp [hkind, hgoto]), Option.toList_none]
    exact gotosFrom_eq_nil fun i hi => (opening_settled hgoto node base length i hi).no_goto

private theorem gotos_aux :
    (∀ node base, gotosFrom base (translate base node) = (placed base node).filterMap gotoAt?) ∧
      ∀ nodes base,
        gotosFrom base (translateAll base nodes) = (placedAll base nodes).filterMap gotoAt? := by
  refine walk_induction ?_ ?_ ?_ ?_
  · intro node hforeign base
    have hgoto : gotoAt? (base, node) = none := by
      rw [gotoAt?, if_neg]
      intro hkind
      rw [isConstruct_iff.2 ⟨_, hkind⟩] at hforeign
      cases hforeign
    rw [translate_foreign hforeign, placed_foreign hforeign, List.filterMap_cons, hgoto]
    rfl
  · intro node c hkind ih base
    have hclosing : gotosFrom (base + openingSize c node + sizeAll (body node))
        (scheme c node base (sizeAll (body node))).closing = [] :=
      gotosFrom_eq_nil fun i hi => (closing_settled c node base _ i hi).no_goto
    -- only the opening of a construct can be a goto of its own; the others come from the body
    rw [translate_construct hkind, placed_construct hkind, gotosFrom_append, gotosFrom_append,
      gotosFrom_opening hkind, length_opening, ih, List.length_append, length_opening,
      length_translateAll, ← Nat.add_assoc, hclosing, List.append_nil, List.filterMap_cons]
    cases gotoAt? (base, node) <;> rfl
  · intro base
    rfl
  · intro node nodes hnode hnodes base
    rw [translateAll, placedAll, gotosFrom_append, length_translate, hnode, hnodes,
      List.filterMap_append]

/-- The gotos of translated code are the goto nodes that lowering reaches, in document order, and
each stands at the place of its node. -/
theorem gotosFrom_translate (base : Nat) (node : Node) :
    gotosFrom base (translate base node) = (placed base node).filterMap gotoAt? :=
  gotos_aux.1 node base

theorem gotosFrom_translateAll (base : Nat) (nodes : List Node) :
    gotosFrom base (translateAll base nodes) = (placedAll base nodes).filterMap gotoAt? :=
  gotos_aux.2 nodes base

theorem mem_gotosFrom {base : Nat} {code : List Instruction} {address : Nat} {label : String}
    {target : Option Nat} :
    (address, label, target) ∈ gotosFrom base code ↔
      base ≤ address ∧ code[address - base]? = some (.goto label target) := by
  rw [gotosFrom, List.mem_filterMap, ← List.mk_mem_zipIdx_iff_le_and_getElem?_sub]
  constructor
  · rintro ⟨⟨instruction, index⟩, hmem, hgoto⟩
    obtain ⟨goto, hinstruction, heq⟩ := Option.map_eq_some_iff.1 hgoto
    cases heq
    have hgoto : instruction = .goto label target := Instruction.goto?_eq_some hinstruction
    exact hgoto ▸ hmem
  · intro hmem
    exact ⟨_, hmem, rfl⟩

/-- Gotos are listed by ascending addresses. -/
theorem gotosFrom_pairwise (base : Nat) (code : List Instruction) :
    (gotosFrom base code).Pairwise (fun a b => a.1 < b.1) := by
  induction code generalizing base with
  | nil => exact List.Pairwise.nil
  | cons instruction code ih =>
    rw [← List.singleton_append, gotosFrom_append, List.pairwise_append]
    refine ⟨?_, ih _, fun a ha b hb => ?_⟩
    · -- one instruction is at most one goto
      cases hgoto : instruction.goto? <;> simp [gotosFrom, hgoto]
    · have hb := (mem_gotosFrom.1 hb).1
      obtain ⟨ha, hat⟩ := mem_gotosFrom.1 ha
      have hlt : a.1 - base < [instruction].length := (List.getElem?_eq_some_iff.1 hat).1
      rw [List.length_singleton] at hb hlt
      omega

theorem gotoAt?_of_gotoLabel? {place : Nat × Node} {label : String}
    (h : gotoLabel? place.2 = some label) : gotoAt? place = some (place.1, label, none) := by
  rw [gotoLabel?] at h
  split at h
  next hkind => rw [gotoAt?, if_pos hkind, operand, h, Option.getD_some]
  next => cases h

/-- A fixup waits at the address of a pending goto that names its label. -/
theorem mem_awaited {places : List (Nat × Node)} {fixup : Fixup} (h : fixup ∈ awaited places) :
    (fixup.address, fixup.label, none) ∈ places.filterMap gotoAt? := by
  obtain ⟨place, hplace, hfixup⟩ := List.mem_filterMap.1 h
  obtain ⟨label, hlabel, rfl⟩ := Option.map_eq_some_iff.1 hfixup
  exact List.mem_filterMap.2 ⟨place, hplace, gotoAt?_of_gotoLabel? hlabel⟩

/-- No two fixups wait at one address. -/
theorem awaited_pairwise {places : List (Nat × Node)}
    (h : (places.filterMap gotoAt?).Pairwise (fun a b => a.1 < b.1)) :
    (awaited places).Pairwise (fun a b => a.address < b.address) := by
  rw [List.pairwise_filterMap] at h
  rw [awaited, List.pairwise_filterMap]
  refine h.imp fun hlt a ha b hb => ?_
  obtain ⟨label, hlabel, rfl⟩ := Option.map_eq_some_iff.1 ha
  obtain ⟨label', hlabel', rfl⟩ := Option.map_eq_some_iff.1 hb
  exact hlt _ (gotoAt?_of_gotoLabel? hlabel) _ (gotoAt?_of_gotoLabel? hlabel')

end Lowering

end TreeScript
