import TreeScript.Proofs.Compile
import TreeScript.Proofs.Trails

/-!
# Concatenation

Two scripts that differ in the children of their code alone can be put together by appending the one
code to the other, as long as they share no label. The code of the result is the code of the first
script without its last instruction, and behind it the code of the second one with every target moved.
A jump of the first script to its last instruction then leads to where the second script begins.
-/

namespace TreeScript

/-! ## 1. Moved code -/

/-- The instruction with its target moved by an offset. -/
def Instruction.shift (offset : Nat) : Instruction → Instruction
  | .condJump condition target => .condJump condition (target.map (· + offset))
  | .goto label target => .goto label (target.map (· + offset))
  | .assert condition target => .assert condition (target.map (· + offset))
  | .jump target => .jump (target + offset)
  | other => other

theorem Instruction.shift_of_isPlain {instruction : Instruction} (h : instruction.isPlain)
    (offset : Nat) : instruction.shift offset = instruction := by
  cases instruction with
  | condJump | goto | assert | jump => cases h
  | _ => rfl

theorem Instruction.link_congr {labels labels' : SortedMap Nat} {instruction : Instruction}
    (h : ∀ goto ∈ instruction.goto?, labels.get? goto.1 = labels'.get? goto.1) :
    instruction.link labels = instruction.link labels' := by
  cases instruction with
  | goto label target =>
    cases target with
    | none => exact congrArg (Instruction.goto label) (h (label, none) rfl)
    | some target => rfl
  | _ => rfl

/-- A moved goto is linked to its label if the label is moved along. -/
theorem Instruction.link_shift {labels labels' : SortedMap Nat} {offset : Nat}
    {instruction : Instruction}
    (h : ∀ goto ∈ instruction.goto?, labels'.get? goto.1 = (labels.get? goto.1).map (· + offset)) :
    (instruction.shift offset).link labels' = (instruction.link labels).shift offset := by
  cases instruction with
  | goto label target =>
    cases target with
    | none => exact congrArg (Instruction.goto label) (h (label, none) rfl)
    | some target => rfl
  | _ => rfl

namespace Lowering

theorem AllPlain.map_shift {code : List Instruction} (h : AllPlain code) (offset : Nat) :
    code.map (Instruction.shift offset) = code := by
  have hkept : code.map (Instruction.shift offset) = code.map id :=
    List.map_congr_left fun instruction hmem =>
      Instruction.shift_of_isPlain (h instruction hmem) offset
  rw [hkept, List.map_id]

theorem opening_add (c : Construct) (node : Node) (base offset length : Nat) :
    (scheme c node (base + offset) length).opening =
      (scheme c node base length).opening.map (Instruction.shift offset) := by
  have hgeneral := Instruction.shift_of_isPlain
    (Instruction.isPlain_of_isOrdinary (general_isOrdinary node)) offset
  have hcount := Instruction.shift_of_isPlain
    (Instruction.isPlain_of_isOrdinary (count_isOrdinary node)) offset
  -- the target of a jump over a body is counted from where the construct starts
  have htarget : ∀ n, base + offset + length + n = base + length + n + offset := by omega
  by_cases hgoto : c = .goto
  · subst hgoto
    rfl
  cases c with
  | block => rfl
  | ifThen =>
    simp only [scheme, List.map_cons, List.map_nil, hgeneral, htarget]
    rfl
  | whileLoop =>
    simp only [scheme, List.map_cons, List.map_nil, hgeneral, htarget]
    rfl
  | forLoop =>
    simp only [scheme, List.map_cons, List.map_nil, hcount, htarget]
    rfl
  | assertion =>
    simp only [scheme, List.map_cons, List.map_nil, htarget]
    rfl
  | _ =>
    have hplain := opening_allPlain rfl hgoto node base length
    exact (hplain.map_shift offset).symm

theorem closing_add (c : Construct) (node : Node) (base offset length : Nat) :
    (scheme c node (base + offset) length).closing =
      (scheme c node base length).closing.map (Instruction.shift offset) := by
  cases c with
  | forLoop =>
    have htop : base + offset + 2 = base + 2 + offset := by omega
    simp only [scheme, List.map_cons, List.map_nil, Instruction.shift, htop]
  | _ => rfl

private theorem translate_add_aux :
    (∀ node base offset, translate (base + offset) node =
        (translate base node).map (Instruction.shift offset)) ∧
      ∀ nodes base offset, translateAll (base + offset) nodes =
        (translateAll base nodes).map (Instruction.shift offset) := by
  refine walk_induction ?_ ?_ ?_ ?_
  · intro node hforeign base offset
    rw [translate_foreign hforeign, translate_foreign hforeign, List.map_nil]
  · intro node c hkind ih base offset
    rw [translate_construct hkind, translate_construct hkind, List.map_append, List.map_append,
      opening_add, closing_add, Nat.add_right_comm base offset, ih]
  · intro base offset
    rfl
  · intro node nodes hnode hnodes base offset
    rw [translateAll, translateAll, List.map_append, Nat.add_right_comm base offset, hnode, hnodes]

/-- Code that starts later is the same code with its targets moved. -/
theorem translateAll_add (base offset : Nat) (nodes : List Node) :
    translateAll (base + offset) nodes =
      (translateAll base nodes).map (Instruction.shift offset) :=
  translate_add_aux.2 nodes base offset

private theorem placed_add_aux :
    (∀ node base offset, placed (base + offset) node =
        (placed base node).map (Prod.map (· + offset) id)) ∧
      ∀ nodes base offset, placedAll (base + offset) nodes =
        (placedAll base nodes).map (Prod.map (· + offset) id) := by
  refine walk_induction ?_ ?_ ?_ ?_
  · intro node hforeign base offset
    rw [placed_foreign hforeign, placed_foreign hforeign]
    rfl
  · intro node c hkind ih base offset
    rw [placed_construct hkind, placed_construct hkind, Nat.add_right_comm base offset, ih]
    rfl
  · intro base offset
    rfl
  · intro node nodes hnode hnodes base offset
    rw [placedAll, placedAll, List.map_append, Nat.add_right_comm base offset, hnode, hnodes]

theorem placedAll_add (base offset : Nat) (nodes : List Node) :
    placedAll (base + offset) nodes = (placedAll base nodes).map (Prod.map (· + offset) id) :=
  placed_add_aux.2 nodes base offset

/-! ## 2. Nodes behind others -/

theorem reachedAll_append (first second : List Node) :
    reachedAll (first ++ second) = reachedAll first ++ reachedAll second := by
  induction first with
  | nil => rfl
  | cons node nodes ih => rw [List.cons_append, reachedAll, reachedAll, ih, List.append_assoc]

theorem translateAll_append (base : Nat) (first second : List Node) :
    translateAll base (first ++ second) =
      translateAll base first ++ translateAll (base + sizeAll first) second := by
  induction first generalizing base with
  | nil => rfl
  | cons node nodes ih =>
    rw [List.cons_append, translateAll, translateAll, ih, sizeAll, List.append_assoc, Nat.add_assoc]

theorem placedAll_append (base : Nat) (first second : List Node) :
    placedAll base (first ++ second) =
      placedAll base first ++ placedAll (base + sizeAll first) second := by
  induction first generalizing base with
  | nil => rfl
  | cons node nodes ih =>
    rw [List.cons_append, placedAll, placedAll, ih, sizeAll, List.append_assoc, Nat.add_assoc]

theorem lookup_labelsOf_add (places : List (Nat × Node)) (offset : Nat) (name : String) :
    (labelsOf (places.map (Prod.map (· + offset) id))).lookup name =
      ((labelsOf places).lookup name).map (· + offset) := by
  induction places with
  | nil => rfl
  | cons place places ih =>
    rw [List.map_cons, labelsOf_cons, labelsOf_cons, List.lookup_append, List.lookup_append, ih]
    cases hlabel : labelName? place.2 with
    | none => simp [hlabel]
    | some label =>
      by_cases hname : name = label
      · simp [hlabel, hname]
      · simp [hlabel, hname, SortedMap.lookup_cons_eq_ite]

/-- A label of the first nodes keeps its address, and one that only the second ones have is moved. -/
theorem get?_labelTable_append (first second : List Node) (name : String) :
    (labelTable (first ++ second)).get? name =
      ((labelTable first).get? name).or
        (((labelTable second).get? name).map (· + sizeAll first)) := by
  rw [get?_labelTable, get?_labelTable, get?_labelTable, placedAll_append, placedAll_add, labelsOf,
    List.filterMap_append, List.lookup_append, ← labelsOf, ← labelsOf, lookup_labelsOf_add]

theorem getLast?_linked (nodes : List Node) : (linked nodes).getLast? = some .nop := by
  rw [linked, unlinked, List.map_append, List.map_singleton, List.getLast?_concat]
  rfl

theorem unlinked_append (first second : List Node) :
    unlinked (first ++ second) =
      translateAll 0 first ++ (unlinked second).map (Instruction.shift (sizeAll first)) := by
  rw [unlinked, unlinked, translateAll_append, translateAll_add, List.map_append, List.append_assoc]
  rfl

section

variable {first second : List Node} (hfirst : WellFormed first) (hsecond : WellFormed second)
  (hlabels : ∀ name ∈ labelNames (reachedAll first), name ∉ labelNames (reachedAll second))
include hfirst hsecond hlabels

theorem WellFormed.append : WellFormed (first ++ second) where
  complete := by
    rw [reachedAll_append]
    exact List.forall_mem_append.2 ⟨hfirst.complete, hsecond.complete⟩
  distinct := by
    rw [reachedAll_append, labelNames, List.filterMap_append, List.nodup_append]
    refine ⟨hfirst.distinct, hsecond.distinct, fun name hname other hother heq => ?_⟩
    exact hlabels name hname (heq ▸ hother)
  resolved := by
    -- every goto finds its label among the nodes that it comes from
    rw [reachedAll_append, labelNames, gotoLabels, List.filterMap_append, List.filterMap_append]
    intro label hlabel
    rcases List.mem_append.1 hlabel with hlabel | hlabel
    · exact List.mem_append_left _ (hfirst.resolved label hlabel)
    · exact List.mem_append_right _ (hsecond.resolved label hlabel)

/-- Both parts are linked as they are alone, but for the place of the second one. -/
theorem WellFormed.linked_append :
    linked (first ++ second) =
      (linked first).dropLast ++ (linked second).map (Instruction.shift (sizeAll first)) := by
  have hold : ∀ instruction ∈ translateAll 0 first,
      instruction.link (labelTable (first ++ second)) = instruction.link (labelTable first) := by
    intro instruction hmem
    refine Instruction.link_congr fun goto hgoto => ?_
    obtain ⟨address, haddress⟩ := hfirst.exists_address (List.mem_append_left _ hmem) hgoto
    rw [get?_labelTable_append, haddress, Option.some_or]
  have hnew : ∀ instruction ∈ unlinked second,
      (instruction.shift (sizeAll first)).link (labelTable (first ++ second)) =
        (instruction.link (labelTable second)).shift (sizeAll first) := by
    intro instruction hmem
    refine Instruction.link_shift fun goto hgoto => ?_
    obtain ⟨address, haddress⟩ := hsecond.exists_address hmem hgoto
    -- the label belongs to the second nodes, so the first ones do not have it
    have hmine : goto.1 ∈ labelNames (reachedAll second) :=
      contains_labelTable.1 (Option.isSome_of_mem haddress)
    have hfree : (labelTable first).get? goto.1 = none := by
      rw [← Option.not_isSome_iff_eq_none]
      exact fun hknown => hlabels goto.1 (contains_labelTable.1 hknown) hmine
    rw [get?_labelTable_append, hfree, Option.none_or]
  have hlast : (linked first).dropLast =
      (translateAll 0 first).map (Instruction.link (labelTable first)) := by
    rw [linked, unlinked, List.map_append, List.map_singleton, List.dropLast_concat]
  rw [linked, unlinked_append, List.map_append, List.map_map, hlast, linked, List.map_map]
  exact congr (congrArg _ (List.map_congr_left hold)) (List.map_congr_left hnew)

end

end Lowering

/-! ## 3. Documents -/

namespace Grammar

theorem Conforms.child {grammar : Grammar} {element child : Element} (h : grammar.Conforms element)
    (hchild : child ∈ element.children) : grammar.Conforms child := by
  cases h with
  | intro _ _ _ children => exact children child hchild

section

variable {grammar : Grammar} {tag : String} {attributes : Attributes} {text : Option String}

/-- Elements that conform and differ in their children alone may have these put together. -/
theorem Conforms.append {first second : List Element}
    (hfirst : grammar.Conforms ⟨tag, attributes, first, text⟩)
    (hsecond : grammar.Conforms ⟨tag, attributes, second, text⟩) :
    grammar.Conforms ⟨tag, attributes, first ++ second, text⟩ := by
  cases hfirst with
  | intro declared permits tags children =>
    cases hsecond with
    | intro declared' _ tags' children' =>
      -- one tag has one rule
      cases declared.symm.trans declared'
      exact .intro declared ⟨permits.accepted, permits.required, permits.blank⟩
        (List.forall_mem_append.2 ⟨tags, tags'⟩) (List.forall_mem_append.2 ⟨children, children'⟩)

/-- A child may give way to one with the same tag. -/
theorem Conforms.replace {before behind : List Element} {old new : Element}
    (h : grammar.Conforms ⟨tag, attributes, before ++ old :: behind, text⟩) (htag : new.tag = old.tag)
    (hnew : grammar.Conforms new) :
    grammar.Conforms ⟨tag, attributes, before ++ new :: behind, text⟩ := by
  cases h with
  | intro declared permits tags children =>
    obtain ⟨hbefore, hrest⟩ := List.forall_mem_append.1 tags
    obtain ⟨hold, hbehind⟩ := List.forall_mem_cons.1 hrest
    obtain ⟨hbefore', hrest'⟩ := List.forall_mem_append.1 children
    refine .intro declared ⟨permits.accepted, permits.required, permits.blank⟩ ?_ ?_
    · exact List.forall_mem_append.2 ⟨hbefore, List.forall_mem_cons.2 ⟨htag ▸ hold, hbehind⟩⟩
    · exact List.forall_mem_append.2
        ⟨hbefore', List.forall_mem_cons.2 ⟨hnew, (List.forall_mem_cons.1 hrest').2⟩⟩

end

end Grammar

/-- A document without the children of its code. -/
structure Frame where
  path : Option String := none
  /-- The tag of the root. -/
  tag : String
  attributes : Attributes := ∅
  text : Option String := none
  /-- The children of the root before the code, and those behind it. -/
  before : List Element
  behind : List Element := []
  codeAttributes : Attributes := ∅
  codeText : Option String := none

namespace Frame

/-- The code of a frame with children. -/
def code (frame : Frame) (children : List Element) : Element :=
  ⟨"code", frame.codeAttributes, children, frame.codeText⟩

/-- The document of a frame with children in its code. -/
def document (frame : Frame) (children : List Element) : Document where
  path := frame.path
  root := ⟨frame.tag, frame.attributes, frame.before ++ frame.code children :: frame.behind, frame.text⟩

/-- The node of the code. -/
def codeNode (frame : Frame) (children : List Element) : Node :=
  Node.ofElementAt (Trail.child ⟨frame.tag, []⟩ "code" frame.before.length) (frame.code children)

theorem accepts_append {frame : Frame} {grammar : Grammar} {first second : List Element}
    (hfirst : grammar.Accepts (frame.document first))
    (hsecond : grammar.Accepts (frame.document second)) :
    grammar.Accepts (frame.document (first ++ second)) := by
  have hmem : ∀ children, frame.code children ∈ (frame.document children).root.children :=
    fun _ => List.mem_append_right _ List.mem_cons_self
  have hcode : grammar.Conforms (frame.code (first ++ second)) :=
    (hfirst.conforms.child (hmem first)).append (hsecond.conforms.child (hmem second))
  exact ⟨hfirst.root, hfirst.conforms.replace rfl hcode⟩

theorem children_root (frame : Frame) (children : List Element) :
    (Node.ofElement (frame.document children).root).children =
      Node.ofElementsAt ⟨frame.tag, []⟩ 0 frame.before ++ frame.codeNode children ::
        Node.ofElementsAt ⟨frame.tag, []⟩ (frame.before.length + 1) frame.behind := by
  rw [Node.ofElement, Node.children_ofElementAt, document, Node.ofElementsAt_append, Node.ofElementsAt,
    Nat.zero_add]
  rfl

theorem kind_codeNode (frame : Frame) (children : List Element) :
    (frame.codeNode children).kind = .part .code :=
  Node.kind_ofElementAt _ _

/-- Whatever stands in the code, the header is the same. -/
theorem partsOf_header (frame : Frame) (children other : List Element) :
    (Node.ofElement (frame.document children).root).partsOf .header =
      (Node.ofElement (frame.document other).root).partsOf .header := by
  have hcode : ∀ children, ¬ (frame.codeNode children).kind = .part .header := by
    intro children
    rw [kind_codeNode]
    decide
  simp only [Node.partsOf, children_root, List.filter_append, List.filter_cons, hcode, decide_false,
    Bool.false_eq_true, if_false]

/-- If there is one code only, it is that of the frame, and so it is with other children. -/
theorem partsOf_code {frame : Frame} {children : List Element} {code : Node}
    (h : (Node.ofElement (frame.document children).root).partsOf .code = [code]) :
    code = frame.codeNode children ∧
      ∀ other, (Node.ofElement (frame.document other).root).partsOf .code = [frame.codeNode other] := by
  simp only [Node.partsOf, children_root, List.filter_append, List.filter_cons, kind_codeNode,
    decide_true, if_true] at h ⊢
  rcases List.append_eq_singleton_iff.1 h with ⟨hbefore, hrest⟩ | ⟨-, hrest⟩
  · obtain ⟨hcode, hbehind⟩ := List.cons_eq_cons.1 hrest
    exact ⟨hcode.symm, fun other => by rw [hbefore, hbehind, List.nil_append]⟩
  · cases hrest

end Frame

namespace Compiler

open Lowering

variable {grammar : Grammar} {frame : Frame} {first second : List Element}

/-- Apart from their trails, the nodes of appended elements are those of both parts. -/
theorem bareAll_codeNode_append (frame : Frame) (first second : List Element) :
    Node.bareAll (frame.codeNode (first ++ second)).children =
      Node.bareAll ((frame.codeNode first).children ++ (frame.codeNode second).children) := by
  simp only [Frame.codeNode, Node.children_ofElementAt, Frame.code, Node.ofElementsAt_append,
    Node.bareAll_eq_map, List.map_append, List.append_cancel_left_eq]
  rw [← Node.bareAll_eq_map, ← Node.bareAll_eq_map]
  exact Node.bareAll_ofElementsAt _ _ _ _ second

/-- A frame that makes a script with one code and with another makes one with both, if they share no
label. Its header is the same. -/
theorem IsScript.append {header code header' code' : Node}
    (hfirst : IsScript grammar (frame.document first) header code)
    (hsecond : IsScript grammar (frame.document second) header' code')
    (hlabels : ∀ name ∈ labelNames (reachedAll (frame.codeNode first).children),
      name ∉ labelNames (reachedAll (frame.codeNode second).children)) :
    IsScript grammar (frame.document (first ++ second)) header (frame.codeNode (first ++ second)) := by
  obtain ⟨rfl, hone⟩ := Frame.partsOf_code hfirst.one_code
  obtain ⟨rfl, -⟩ := Frame.partsOf_code hsecond.one_code
  have hcode : WellFormed (frame.codeNode (first ++ second)).children := by
    rw [← wellFormed_bareAll, bareAll_codeNode_append, wellFormed_bareAll]
    exact hfirst.wellFormed.append hsecond.wellFormed hlabels
  exact ⟨Frame.accepts_append hfirst.accepts hsecond.accepts,
    (Frame.partsOf_header frame (first ++ second) first).trans hfirst.one_header,
    hone (first ++ second), hfirst.proper, hcode⟩

/-- Compiling is compositional. Two codes that compile under one header and share no label compile one
after the other, and the second is the same code in another place: the first one loses the instruction
that ends it, and the targets of the second one grow by what is left of the first. -/
theorem compile_append {a b : Executable} {order order' : LabelOrder} {session session' : Session}
    (hfirst : (compile ⟨grammar, .standard⟩ (frame.document first) order session).1 = .ok a)
    (hsecond : (compile ⟨grammar, .standard⟩ (frame.document second) order' session').1 = .ok b)
    (hlabels : ∀ name ∈ labelNames (reachedAll (frame.codeNode first).children),
      name ∉ labelNames (reachedAll (frame.codeNode second).children))
    (order'' : LabelOrder) (session'' : Session) :
    a.code.back? = some .nop ∧
      (compile ⟨grammar, .standard⟩ (frame.document (first ++ second)) order'' session'').1 =
        .ok ⟨a.header, a.code.pop ++ b.code.map (Instruction.shift (a.code.size - 1))⟩ := by
  obtain ⟨header, code, hscript, rfl⟩ := compile_ok_iff.1 hfirst
  obtain ⟨header', code', hscript', rfl⟩ := compile_ok_iff.1 hsecond
  have hboth := hscript.append hscript' hlabels
  obtain ⟨rfl, -⟩ := Frame.partsOf_code hscript.one_code
  obtain ⟨rfl, -⟩ := Frame.partsOf_code hscript'.one_code
  have hlinked : linked (frame.codeNode (first ++ second)).children =
      (linked (frame.codeNode first).children).dropLast ++
        (linked (frame.codeNode second).children).map
          (Instruction.shift (sizeAll (frame.codeNode first).children)) := by
    rw [← linked_bareAll, bareAll_codeNode_append, linked_bareAll]
    exact hscript.wellFormed.linked_append hscript'.wellFormed hlabels
  have hsize : (linked (frame.codeNode first).children).toArray.size - 1 =
      sizeAll (frame.codeNode first).children := by
    rw [List.size_toArray, linked, List.length_map, length_unlinked, Nat.add_sub_cancel]
  refine ⟨?_, compile_ok_iff.2 ⟨header, _, hboth, ?_⟩⟩
  · rw [List.back?_toArray, getLast?_linked]
  · rw [hsize, hlinked, List.pop_toArray, List.map_toArray, List.append_toArray]

/-- A frame with a header. -/
def tally : Frame where
  tag := "script"
  before := [{ tag := "header", attributes := .ofList [("name", "tally"), ("version-number", "1.0")] }]

/-- Counts up to ten. -/
def tallyUp : List Element := [
  { tag := "set", attributes := .ofList [("name", "i"), ("value", "0"), ("new", "")] },
  { tag := "label", attributes := .ofList [("name", "up")] },
  { tag := "math", attributes := .ofList [("left", "i"), ("oper", "+"), ("value", "1")] },
  { tag := "if"
    attributes := .ofList [("item", "i"), ("value", "10"), ("type", "less")]
    children := [{ tag := "goto", attributes := .ofList [("label", "up")] }] }]

/-- Counts down and leaves at zero. -/
def tallyDown : List Element := [
  { tag := "label", attributes := .ofList [("name", "down")] },
  { tag := "math", attributes := .ofList [("left", "i"), ("oper", "-"), ("value", "1")] },
  { tag := "if"
    attributes := .ofList [("item", "i"), ("value", "0"), ("type", "equal")]
    children := [{ tag := "goto", attributes := .ofList [("label", "end")] }] },
  { tag := "goto", attributes := .ofList [("label", "down")] },
  { tag := "label", attributes := .ofList [("name", "end")] }]

def tallyHeader : Header := { name := "tally", version := ⟨1, 0⟩ }

def tallyUpCode : Code := #[
  .loadLiteral "0", .declareNew "i",
  .loadLiteral "1", .moveRight, .fetch "i", .arith "+", .store "i",
  .loadLiteral "10", .moveRight, .fetch "i", .arith "-", .condJump .less (some 15), .scopeEnter,
  .goto "up" (some 2), .scopeExit, .nop, .nop]

def tallyDownCode : Code := #[
  .loadLiteral "1", .moveRight, .fetch "i", .arith "-", .store "i",
  .loadLiteral "0", .moveRight, .fetch "i", .arith "-", .condJump .equal (some 13), .scopeEnter,
  .goto "end" (some 15), .scopeExit, .nop,
  .goto "down" (some 0), .nop]

/-- The code of both: the second part starts at address 16. -/
def tallyCode : Code := #[
  .loadLiteral "0", .declareNew "i",
  .loadLiteral "1", .moveRight, .fetch "i", .arith "+", .store "i",
  .loadLiteral "10", .moveRight, .fetch "i", .arith "-", .condJump .less (some 15), .scopeEnter,
  .goto "up" (some 2), .scopeExit, .nop,
  .loadLiteral "1", .moveRight, .fetch "i", .arith "-", .store "i",
  .loadLiteral "0", .moveRight, .fetch "i", .arith "-", .condJump .equal (some 29), .scopeEnter,
  .goto "end" (some 31), .scopeExit, .nop,
  .goto "down" (some 16), .nop]

theorem compile_tally :
    (compile ⟨.standard, .standard⟩ (tally.document tallyUp) .byName {}).1 =
        .ok ⟨tallyHeader, tallyUpCode⟩ ∧
      (compile ⟨.standard, .standard⟩ (tally.document tallyDown) .byName {}).1 =
        .ok ⟨tallyHeader, tallyDownCode⟩ ∧
      (compile ⟨.standard, .standard⟩ (tally.document (tallyUp ++ tallyDown)) .byName {}).1 =
        .ok ⟨tallyHeader, tallyCode⟩ := by
  have hup : (compile ⟨.standard, .standard⟩ (tally.document tallyUp) .byName {}).1 =
      .ok ⟨tallyHeader, tallyUpCode⟩ := Fallible.eq_ok_of_toOption (by decide +kernel)
  have hdown : (compile ⟨.standard, .standard⟩ (tally.document tallyDown) .byName {}).1 =
      .ok ⟨tallyHeader, tallyDownCode⟩ := Fallible.eq_ok_of_toOption (by decide +kernel)
  have hlabels : ∀ name ∈ labelNames (reachedAll (tally.codeNode tallyUp).children),
      name ∉ labelNames (reachedAll (tally.codeNode tallyDown).children) := by decide +kernel
  have hcode : tallyUpCode.pop ++ tallyDownCode.map (Instruction.shift (tallyUpCode.size - 1)) =
      tallyCode := by decide +kernel
  exact ⟨hup, hdown, hcode ▸ (compile_append hup hdown hlabels .byName {}).2⟩

end Compiler

end TreeScript
