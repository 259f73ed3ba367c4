import TreeScript.Proofs.Concatenation
import TreeScript.Proofs.Positions
import TreeScript.Proofs.StandardGrammar
import TreeScript.Proofs.TextLines

/-!
# The lines of a listing

A listing is meant to be read line by line: lines that start with a semicolon for the header, then a
line for each instruction. Notes are split into lines, and literals and expressions are quoted. All
other texts stand in the listing as they are, so a line feed in one of them breaks its line.

* `Executable.Lined` says that a listing can be read line by line.
* `Executable.Unbroken` says that no text breaks a line, other than by going on in the header block.
-/

namespace TreeScript

open Text (feedsMarked)

/-! ## 1. Instructions -/

namespace Instruction

/-- The operand that a listing shows as it is. -/
def raw? : Instruction → Option String
  | .store name | .declareNew name | .bufferReduce name | .mask name | .merge name | .arith name
  | .clearBuffer name | .fetch name | .call name | .exec name | .subroutine name | .memberCall name
  | .goto name _ => some name
  | _ => none

/-- An instruction that is shown on one line. -/
def Unbroken (instruction : Instruction) : Prop :=
  ∀ name ∈ instruction.raw?, '\n' ∉ name.toList

instance (instruction : Instruction) : Decidable instruction.Unbroken :=
  inferInstanceAs (Decidable (∀ name ∈ instruction.raw?, _))

theorem unbroken_of_raw {instruction : Instruction} {name : String} (h : instruction.raw? = some name)
    (hname : '\n' ∉ name.toList) : instruction.Unbroken := by
  intro other hother
  rw [h] at hother
  exact Option.some.inj hother ▸ hname

theorem unbroken_of_quoted {instruction : Instruction} (h : instruction.raw? = none) :
    instruction.Unbroken := by
  intro name hname
  rw [h] at hname
  cases hname

theorem notMem_addressText (address : Nat) : '\n' ∉ (addressText address).toList := by
  rw [addressText, String.toList_append, List.mem_append, not_or]
  exact ⟨by decide, Text.notMem_repr (by decide) address⟩

theorem notMem_targetText (target : Option Nat) : '\n' ∉ (targetText target).toList := by
  cases target with
  | none => decide
  | some address => exact notMem_addressText address

theorem notMem_condition (condition : Condition) : '\n' ∉ condition.name.toList := by
  cases condition <;> decide

theorem notMem_mnemonic (instruction : Instruction) : '\n' ∉ instruction.mnemonic.toList := by
  unfold mnemonic
  split <;> decide

/-- Of the operands only those that are shown as they are can have a line feed. -/
theorem unbroken_iff_operands (instruction : Instruction) :
    instruction.Unbroken ↔ ∀ operands ∈ instruction.operands?, '\n' ∉ operands.toList := by
  cases instruction <;>
    simp [Unbroken, raw?, operands?, Text.notMem_quoted, notMem_targetText, notMem_condition,
      notMem_addressText]

theorem unbroken_iff (instruction : Instruction) :
    instruction.Unbroken ↔ '\n' ∉ instruction.text.toList := by
  rw [unbroken_iff_operands, text]
  cases instruction.operands? with
  | none => simp [notMem_mnemonic]
  | some operands => simp [List.rightpad, notMem_mnemonic]

end Instruction

/-! ## 2. Headers -/

namespace Header

/-- The texts of a header that a listing shows as they are. -/
def raw (header : Header) : List String :=
  header.name :: (header.uid.toList ++
    (header.output.map fun output => output.name :: output.typeTag.toList).getD [])

/-- A header whose texts stay in the header block: a line feed may be in one of them if a semicolon
follows it. -/
def Unbroken (header : Header) : Prop :=
  ∀ text ∈ header.raw, feedsMarked text.toList

instance (header : Header) : Decidable header.Unbroken :=
  inferInstanceAs (Decidable (∀ text ∈ header.raw, _))

/-- A line of the header block: it starts with a semicolon, and so does what goes on behind a line
feed. -/
def Marked (line : String) : Prop :=
  line.toList.head? = some ';' ∧ feedsMarked line.toList

theorem marked_append {front : String} (hhead : front.toList.head? = some ';')
    (hfront : '\n' ∉ front.toList) (text : String) :
    Marked (front ++ text) ↔ feedsMarked text.toList := by
  have hstart : (front.toList ++ text.toList).head? = some ';' := by
    rw [List.head?_append, hhead, Option.some_or]
  rw [Marked, String.toList_append, Text.feedsMarked_append_of_notMem hfront]
  exact and_iff_right hstart

theorem feedsMarked_append_text {back : String} (hhead : back.toList.head? ≠ some ';') (text : String) :
    feedsMarked (text ++ back).toList ↔ feedsMarked text.toList ∧ feedsMarked back.toList := by
  rw [String.toList_append, Text.feedsMarked_append hhead, Bool.and_eq_true]

theorem marked_title (header : Header) :
    Marked ("; " ++ header.name ++ " v" ++ header.version.text) ↔ feedsMarked header.name.toList := by
  have hversion : '\n' ∉ (" v" ++ header.version.text).toList := by
    rw [Version.text]
    simp only [String.toList_append, List.mem_append, not_or]
    exact ⟨by decide, ⟨Text.notMem_repr (by decide) _, by decide⟩, Text.notMem_repr (by decide) _⟩
  have hblank : (" v" ++ header.version.text).toList.head? ≠ some ';' := by
    rw [String.toList_append]
    exact (by decide : some ' ' ≠ some ';')
  rw [String.append_assoc, String.append_assoc, marked_append rfl (by decide),
    feedsMarked_append_text hblank]
  exact and_iff_left (Text.feedsMarked_of_notMem hversion)

theorem marked_output (output : OutputVariable) :
    Marked ("; output " ++ output.name ++ (output.typeTag.map (": " ++ ·)).getD "") ↔
      ∀ text ∈ output.name :: output.typeTag.toList, feedsMarked text.toList := by
  rw [String.append_assoc, marked_append rfl (by decide), List.forall_mem_cons]
  cases output.typeTag with
  | none =>
    rw [feedsMarked_append_text (by decide)]
    exact and_congr_right fun _ => iff_of_true rfl (List.forall_mem_nil _)
  | some typeTag =>
    have hcolon : (": " ++ typeTag).toList.head? ≠ some ';' := by
      rw [String.toList_append]
      exact (by decide : some ':' ≠ some ';')
    rw [Option.map_some, Option.getD_some, feedsMarked_append_text hcolon, String.toList_append,
      Text.feedsMarked_append_of_notMem (by decide), Option.toList_some, List.forall_mem_singleton]

theorem marked_note {note line : String} (h : line ∈ Text.lines note) : Marked ("; " ++ line) :=
  (marked_append rfl (by decide) line).2 (Text.feedsMarked_of_notMem (Text.notMem_of_mem_lines h))

/-- The lines of a header stay in the header block just when its texts do. -/
theorem marked_iff (header : Header) : (∀ line ∈ header.listing, Marked line) ↔ header.Unbroken := by
  have hnote : ∀ line ∈ ((header.note.map Text.lines).getD []).map ("; " ++ ·), Marked line := by
    rw [List.forall_mem_map]
    intro line hline
    cases hheader : header.note with
    | none =>
      rw [hheader] at hline
      cases hline
    | some note =>
      rw [hheader] at hline
      exact marked_note hline
  have huid : (∀ line ∈ (header.uid.map ("; uid " ++ ·)).toList, Marked line) ↔
      ∀ text ∈ header.uid.toList, feedsMarked text.toList := by
    cases header.uid with
    | none => exact iff_of_true (List.forall_mem_nil _) (List.forall_mem_nil _)
    | some uid =>
      rw [Option.map_some, Option.toList_some, Option.toList_some, List.forall_mem_singleton,
        List.forall_mem_singleton]
      exact marked_append rfl (by decide) uid
  have houtput : (∀ line ∈ (header.output.map fun output =>
        "; output " ++ output.name ++ (output.typeTag.map (": " ++ ·)).getD "").toList, Marked line) ↔
      ∀ text ∈ (header.output.map fun output => output.name :: output.typeTag.toList).getD [],
        feedsMarked text.toList := by
    cases header.output with
    | none => exact iff_of_true (List.forall_mem_nil _) (List.forall_mem_nil _)
    | some output =>
      rw [Option.map_some, Option.map_some, Option.toList_some, Option.getD_some,
        List.forall_mem_singleton]
      exact marked_output output
  simp only [listing, Unbroken, raw, List.forall_mem_append, List.forall_mem_cons, marked_title, huid,
    houtput]
  constructor
  · rintro ⟨⟨⟨⟨hname, -⟩, huid⟩, -⟩, houtput⟩
    exact ⟨hname, huid, houtput⟩
  · rintro ⟨hname, huid, houtput⟩
    exact ⟨⟨⟨⟨hname, List.forall_mem_nil _⟩, huid⟩, hnote⟩, houtput⟩

end Header

/-! ## 3. Executables -/

/-- The line of an instruction in the listing of a code: its address, behind blanks if it is shorter
than the largest one, a colon and its text. -/
def Code.line (code : Code) (address : Nat) (instruction : Instruction) : String :=
  String.ofList (List.replicate ((code.size - 1).repr.length - address.repr.length) ' ') ++
    address.repr ++ ": " ++ instruction.text

theorem Code.getElem?_listing (code : Code) (address : Nat) :
    (Code.listing code)[address]? = code[address]?.map (code.line address) := by
  have hcolumn : String.ofList (List.leftpad (code.size - 1).repr.length ' ' address.repr.toList) =
      String.ofList (List.replicate ((code.size - 1).repr.length - address.repr.length) ' ') ++
        address.repr := by
    rw [List.leftpad, String.ofList_append, String.ofList_toList, String.length_toList]
  rw [Code.listing, List.getElem?_map, List.getElem?_zipIdx, Array.getElem?_toList]
  cases code[address]? with
  | none => rfl
  | some instruction => simp only [Option.map_some, Nat.zero_add, hcolumn, Code.line]

theorem Code.length_listing (code : Code) : (Code.listing code).length = code.size := by
  rw [Code.listing, List.length_map, List.length_zipIdx, Array.length_toList]

theorem Code.notMem_line {code : Code} {address : Nat} {instruction : Instruction} :
    '\n' ∉ (code.line address instruction).toList ↔ instruction.Unbroken := by
  have hcolon : '\n' ∉ ": ".toList := by decide
  have haddress : '\n' ∉ address.repr.toList := Text.notMem_repr (by decide) address
  have hblanks (n : Nat) : '\n' ∉ List.replicate n ' ' := by simp
  simp only [Code.line, String.toList_append, String.toList_ofList, List.mem_append, hblanks, hcolon,
    haddress, or_false, false_or, Instruction.unbroken_iff]

theorem Code.unbroken_iff_listing (code : Code) :
    (∀ line ∈ Code.listing code, '\n' ∉ line.toList) ↔ ∀ instruction ∈ code, instruction.Unbroken := by
  constructor
  · intro h instruction hmem
    obtain ⟨address, hat⟩ := Array.mem_iff_getElem?.1 hmem
    have hline : (Code.listing code)[address]? = some (code.line address instruction) := by
      rw [Code.getElem?_listing, hat, Option.map_some]
    exact Code.notMem_line.1 (h _ (List.mem_of_getElem? hline))
  · intro h line hmem
    obtain ⟨address, hat⟩ := List.mem_iff_getElem?.1 hmem
    rw [Code.getElem?_listing, Option.map_eq_some_iff] at hat
    obtain ⟨instruction, hat, rfl⟩ := hat
    exact Code.notMem_line.2 (h instruction (Array.mem_of_getElem? hat))

namespace Executable

/-- A listing that can be read line by line: a block of lines that start with a semicolon, then a line
for each instruction. -/
def Lined (executable : Executable) : Prop :=
  ∃ block lines : List String,
    Text.pieces executable.listing.toList = (block ++ lines).map (·.toList ++ ['\n']) ∧
    (∀ line ∈ block, line.toList.head? = some ';') ∧
    lines.length = executable.code.size ∧
    ∀ address instruction, executable.code[address]? = some instruction →
      lines[address]? = some (executable.code.line address instruction)

/-- An executable none of whose texts breaks a line of the listing. -/
structure Unbroken (executable : Executable) : Prop where
  header : executable.header.Unbroken
  code : ∀ instruction ∈ executable.code, instruction.Unbroken

theorem pieces_listing (executable : Executable) :
    Text.pieces executable.listing.toList =
      (executable.header.listing.flatMap fun line => Text.pieces (line.toList ++ ['\n'])) ++
        (Code.listing executable.code).flatMap fun line => Text.pieces (line.toList ++ ['\n']) := by
  have hlines : executable.listing.toList =
      ((executable.header.listing ++ Code.listing executable.code).map String.toList).flatMap
        (· ++ ['\n']) := by
    rw [listing, String.toList_join, List.flatMap_map, List.flatMap_map]
    simp only [String.toList_append]
    rfl
  rw [hlines, Text.pieces_lines, List.flatMap_map, List.flatMap_append]

theorem lined_of_unbroken {executable : Executable} (h : executable.Unbroken) : executable.Lined := by
  have hmarked := executable.header.marked_iff.2 h.header
  have hheader : ∀ piece ∈ executable.header.listing.flatMap fun line =>
      Text.pieces (line.toList ++ ['\n']), piece.head? = some ';' ∧
        ∃ front, '\n' ∉ front ∧ piece = front ++ ['\n'] := by
    intro piece hpiece
    obtain ⟨line, hline, hpiece⟩ := List.mem_flatMap.1 hpiece
    exact ⟨(Text.pieces_marked line.toList).2 (hmarked line hline) piece hpiece,
      Text.mem_pieces_line hpiece⟩
  obtain ⟨block, hblock⟩ := Text.exists_lines fun piece hpiece => (hheader piece hpiece).2
  refine ⟨block, Code.listing executable.code, ?_, ?_, Code.length_listing _, ?_⟩
  · rw [pieces_listing, hblock, Text.flatMap_pieces ((Code.unbroken_iff_listing _).2 h.code),
      List.map_append]
  · intro line hline
    have hpiece : (line.toList ++ ['\n']).head? = some ';' :=
      (hheader _ (hblock ▸ List.mem_map_of_mem hline)).1
    -- an empty line would start with its line feed
    cases hchars : line.toList with
    | nil =>
      rw [hchars] at hpiece
      exact absurd hpiece (by decide)
    | cons c cs =>
      rw [hchars] at hpiece
      exact hpiece
  · intro address instruction hat
    rw [Code.getElem?_listing, hat, Option.map_some]

theorem unbroken_of_lined {executable : Executable} (h : executable.Lined) : executable.Unbroken := by
  obtain ⟨block, lines, hpieces, hblock, hlength, hlines⟩ := h
  have hcode : lines = Code.listing executable.code := by
    apply List.ext_getElem?
    intro address
    rw [Code.getElem?_listing]
    cases hat : executable.code[address]? with
    | none =>
      rw [Option.map_none, List.getElem?_eq_none_iff, hlength]
      exact Array.getElem?_eq_none_iff.1 hat
    | some instruction => exact hlines address instruction hat
  -- the line of an instruction is a piece of the listing, so it has no line feed but its own
  have hfeedless : ∀ line ∈ Code.listing executable.code, '\n' ∉ line.toList := by
    intro line hline
    have hpiece : line.toList ++ ['\n'] ∈ Text.pieces executable.listing.toList := by
      rw [hpieces, List.map_append, hcode]
      exact List.mem_append_right _ (List.mem_map_of_mem hline)
    obtain ⟨front, hfront, heq | heq⟩ := Text.mem_pieces hpiece
    · rw [List.append_cancel_right heq]
      exact hfront
    · exact absurd (heq ▸ List.mem_append_right _ (List.mem_singleton_self _)) hfront
  rw [pieces_listing, Text.flatMap_pieces hfeedless, List.map_append, hcode] at hpieces
  have hheader := List.append_cancel_right hpieces
  refine ⟨executable.header.marked_iff.1 fun line hline => ?_,
    (Code.unbroken_iff_listing _).1 hfeedless⟩
  refine (Text.pieces_marked line.toList).1 fun piece hpiece => ?_
  have hmem : piece ∈ executable.header.listing.flatMap fun line =>
      Text.pieces (line.toList ++ ['\n']) := List.mem_flatMap.2 ⟨line, hline, hpiece⟩
  rw [hheader, List.mem_map] at hmem
  obtain ⟨first, hfirst, rfl⟩ := hmem
  rw [List.head?_append, hblock first hfirst, Option.some_or]

/-- A listing can be read line by line just when no text breaks a line. -/
theorem lined_iff_unbroken {executable : Executable} : executable.Lined ↔ executable.Unbroken :=
  ⟨unbroken_of_lined, lined_of_unbroken⟩

end Executable

/-! ## 4. Documents -/

/-- The attributes whose values are literals or expressions, which a listing quotes. -/
def quotedKeys : List String := ["eval", "value", "count"]

/-- Attributes without a line feed, those for literals and expressions apart. -/
def Attributes.Unbroken (attributes : Attributes) : Prop :=
  ∀ entry ∈ attributes.entries, entry.1 ∉ quotedKeys → '\n' ∉ entry.2.toList

instance (attributes : Attributes) : Decidable attributes.Unbroken :=
  inferInstanceAs (Decidable (∀ entry ∈ attributes.entries, _))

/-- A document whose attributes have no line feeds, those for literals and expressions apart. -/
def Document.Unbroken (document : Document) : Prop :=
  ∀ found ∈ document.root.waysIn, found.2.attributes.Unbroken

instance (document : Document) : Decidable document.Unbroken :=
  inferInstanceAs (Decidable (∀ found ∈ document.root.waysIn, _))

theorem Element.along?_append (element : Element) (way rest : List Nat) :
    element.along? (way ++ rest) = (element.along? way).bind (·.along? rest) := by
  induction way generalizing element with
  | nil => rfl
  | cons index way ih =>
    rw [List.cons_append, along?, along?, Option.bind_assoc]
    congr 1
    funext child
    exact ih child

/-- The nodes in the node of an element are the nodes of elements in it. -/
theorem Node.exists_way_of_below {trail : Trail} {element : Element} {node : Node}
    (h : (ofElementAt trail element).Below node) :
    ∃ way found trail', element.along? way = some found ∧ node = ofElementAt trail' found := by
  have hchild {parent : Element} {trail : Trail} {child : Node}
      (h : child ∈ (ofElementAt trail parent).children) :
      ∃ index found trail', parent.along? [index] = some found ∧ child = ofElementAt trail' found := by
    rw [children_ofElementAt] at h
    obtain ⟨index, hat⟩ := List.mem_iff_getElem?.1 h
    rw [getElem?_ofElementsAt, Option.map_eq_some_iff] at hat
    obtain ⟨found, hat, rfl⟩ := hat
    exact ⟨index, found, _, by rw [Element.along?, hat]; rfl, rfl⟩
  -- a step down in the tree of nodes is one more index on the way
  induction h with
  | child h =>
    obtain ⟨index, found, trail', hfound, rfl⟩ := hchild h
    exact ⟨[index], found, trail', hfound, rfl⟩
  | deeper _ h ih =>
    obtain ⟨way, parent, _, hparent, rfl⟩ := ih
    obtain ⟨index, found, trail', hfound, rfl⟩ := hchild h
    refine ⟨way ++ [index], found, trail', ?_, rfl⟩
    rw [Element.along?_append, hparent, Option.bind_some, hfound]

theorem Document.Unbroken.below {document : Document} (h : document.Unbroken) {node : Node}
    (hnode : (Node.ofElement document.root).Below node) : node.attributes.Unbroken := by
  obtain ⟨way, found, trail', hfound, rfl⟩ := Node.exists_way_of_below hnode
  rw [Node.attributes_ofElementAt]
  exact h (way, found) ((Element.mem_waysIn _).2 hfound)

namespace Lowering

private theorem scheme_of_mem_aux :
    (∀ node base, ∀ instruction ∈ translate base node, ∃ n ∈ reached node, ∃ c,
      n.kind = .construct c ∧ ∃ base length, instruction ∈ (scheme c n base length).opening ∨
        instruction ∈ (scheme c n base length).closing) ∧
    ∀ nodes base, ∀ instruction ∈ translateAll base nodes, ∃ n ∈ reachedAll nodes, ∃ c,
      n.kind = .construct c ∧ ∃ base length, instruction ∈ (scheme c n base length).opening ∨
        instruction ∈ (scheme c n base length).closing := by
  refine walk_induction ?_ ?_ ?_ ?_
  · intro node hforeign base instruction h
    rw [translate_foreign hforeign] at h
    cases h
  · intro node c hkind ih base instruction h
    rw [translate_construct hkind, List.mem_append, List.mem_append] at h
    rw [reached_construct hkind]
    rcases h with (hopening | hbody) | hclosing
    · exact ⟨node, List.mem_cons_self, c, hkind, _, _, .inl hopening⟩
    · obtain ⟨n, hn, hscheme⟩ := ih _ instruction hbody
      exact ⟨n, List.mem_cons_of_mem _ hn, hscheme⟩
    · exact ⟨node, List.mem_cons_self, c, hkind, _, _, .inr hclosing⟩
  · intro base instruction h
    cases h
  · intro node nodes hnode hnodes base instruction h
    rw [translateAll, List.mem_append] at h
    rw [reachedAll]
    rcases h with h | h
    · obtain ⟨n, hn, hscheme⟩ := hnode _ instruction h
      exact ⟨n, List.mem_append_left _ hn, hscheme⟩
    · obtain ⟨n, hn, hscheme⟩ := hnodes _ instruction h
      exact ⟨n, List.mem_append_right _ hn, hscheme⟩

/-- Every instruction of a code belongs to the scheme of a node that is reached. -/
theorem exists_scheme_of_mem {base : Nat} {nodes : List Node} {instruction : Instruction}
    (h : instruction ∈ translateAll base nodes) :
    ∃ n ∈ reachedAll nodes, ∃ c, n.kind = .construct c ∧ ∃ base length,
      instruction ∈ (scheme c n base length).opening ∨
        instruction ∈ (scheme c n base length).closing :=
  scheme_of_mem_aux.2 nodes base instruction h

private theorem below_of_reached_aux (root : Node) :
    (∀ node, root.Below node → ∀ n ∈ reached node, root.Below n) ∧
      ∀ nodes, (∀ node ∈ nodes, root.Below node) → ∀ n ∈ reachedAll nodes, root.Below n := by
  refine walk_induction ?_ ?_ ?_ ?_
  · intro node hforeign hnode n hn
    rw [reached_foreign hforeign, List.mem_singleton] at hn
    exact hn ▸ hnode
  · intro node c hkind ih hnode n hn
    rw [reached_construct hkind, List.mem_cons] at hn
    rcases hn with rfl | hn
    · exact hnode
    · exact ih (fun child hchild => .deeper hnode (mem_children_of_mem_body hchild)) n hn
  · intro _ n hn
    cases hn
  · intro node nodes hnode hnodes hall n hn
    rw [reachedAll, List.mem_append] at hn
    rw [List.forall_mem_cons] at hall
    rcases hn with hn | hn
    · exact hnode hall.1 n hn
    · exact hnodes hall.2 n hn

/-- What lowering reaches lies below the node whose children it starts from, and so below any node that
has this one below it. -/
theorem below_of_reached {root node n : Node} (hnode : root.Below node)
    (h : n ∈ reachedAll node.children) : root.Below n :=
  (below_of_reached_aux root).2 node.children (fun _ hchild => .deeper hnode hchild) n h

theorem unreferenced_raw : ∀ source ∈ Sources.unreferenced, ∀ value,
    (source.2 value).raw? = if source.1 ∈ quotedKeys then none else some value := by
  simp [Sources.unreferenced, Instruction.raw?, quotedKeys]

section Unbroken

variable {node : Node} (h : node.attributes.Unbroken)
include h

theorem attribute_unbroken {key value : String} (hkey : key ∉ quotedKeys)
    (hvalue : node.attribute? key = some value) : '\n' ∉ value.toList :=
  h (key, value) (SortedMap.mem_entries.2 hvalue) hkey

theorem operand_unbroken {key : String} (hkey : key ∉ quotedKeys) :
    '\n' ∉ (operand node key).toList := by
  unfold operand
  cases hvalue : node.attribute? key with
  | none => decide
  | some value => exact attribute_unbroken h hkey hvalue

theorem Sources.first?_unbroken {sources : Sources}
    (hsources : ∀ source ∈ sources, ∀ value,
      (source.2 value).raw? = if source.1 ∈ quotedKeys then none else some value)
    {instruction : Instruction} (hfirst : sources.first? node = some instruction) :
    instruction.Unbroken := by
  obtain ⟨source, hsource, value, hvalue, rfl⟩ := Sources.exists_of_first? hfirst
  intro name hname
  rw [hsources source hsource] at hname
  split at hname
  next => cases hname
  next hkey =>
    cases hname
    exact attribute_unbroken h hkey hvalue

theorem Sources.instruction_unbroken {sources : Sources}
    (hsources : ∀ source ∈ sources, ∀ value,
      (source.2 value).raw? = if source.1 ∈ quotedKeys then none else some value) :
    (sources.instruction node).Unbroken := by
  rw [Sources.instruction]
  cases hfirst : sources.first? node with
  | none => decide
  | some instruction => exact Sources.first?_unbroken h hsources hfirst

theorem general_unbroken : (Sources.general.instruction node).Unbroken :=
  Sources.instruction_unbroken h (by simp [Sources.general, Instruction.raw?, quotedKeys])

theorem count_unbroken : (Sources.count.instruction node).Unbroken :=
  Sources.instruction_unbroken h (by simp [Sources.count, Instruction.raw?, quotedKeys])

theorem input_unbroken : (Sources.unreferenced.instruction node).Unbroken :=
  Sources.instruction_unbroken h unreferenced_raw

theorem setCode_unbroken : ∀ instruction ∈ setCode node, instruction.Unbroken := by
  have hname := operand_unbroken h (by decide : "name" ∉ quotedKeys)
  rw [setCode, List.forall_mem_cons, List.forall_mem_singleton]
  refine ⟨general_unbroken h, ?_⟩
  split
  · exact Instruction.unbroken_of_raw rfl hname
  · exact Instruction.unbroken_of_raw rfl hname

theorem bufferCode_unbroken : ∀ instruction ∈ bufferCode node, instruction.Unbroken := by
  have hname := operand_unbroken h (by decide : "name" ∉ quotedKeys)
  have hclear : ∀ instruction ∈ [Instruction.clearBuffer (operand node "name")],
      instruction.Unbroken := List.forall_mem_singleton.2 (Instruction.unbroken_of_raw rfl hname)
  have happended : ∀ instruction ∈ appendedTo node, instruction.Unbroken := by
    rw [appendedTo, List.forall_mem_append, List.forall_mem_map]
    refine ⟨fun instruction hfirst => ?_, fun text _ => Instruction.unbroken_of_quoted rfl⟩
    exact Sources.first?_unbroken h unreferenced_raw (Option.mem_toList.1 hfirst)
  rw [bufferCode, List.forall_mem_append, List.forall_mem_append]
  refine ⟨⟨?_, ?_⟩, ?_⟩
  · split
    · exact hclear
    · exact List.forall_mem_nil _
  · intro instruction hmem
    obtain ⟨appended, hmember, hmem⟩ := List.mem_flatMap.1 hmem
    rcases List.mem_cons.1 hmem with rfl | hmem
    · exact happended instruction hmember
    · rw [List.mem_singleton.1 hmem]
      exact Instruction.unbroken_of_raw rfl hname
  · split
    · exact hclear
    · exact List.forall_mem_nil _

theorem callCode_unbroken (hchildren : ∀ child ∈ node.children, child.attributes.Unbroken)
    {dispatch : List Instruction} (hdispatch : ∀ instruction ∈ dispatch, instruction.Unbroken) :
    ∀ instruction ∈ callCode node dispatch, instruction.Unbroken := by
  have hparameters : ∀ instruction ∈ parameterCode node, instruction.Unbroken := by
    intro instruction hmem
    obtain ⟨child, hchild, hmem⟩ := List.mem_flatMap.1 hmem
    exact setCode_unbroken (hchildren child (List.mem_filter.1 hchild).1) instruction hmem
  have hresult : ∀ instruction ∈ (node.attribute? "result").toList.map Instruction.store,
      instruction.Unbroken := by
    rw [List.forall_mem_map]
    intro result hresult
    have hkey : "result" ∉ quotedKeys := by decide
    exact Instruction.unbroken_of_raw rfl (attribute_unbroken h hkey (Option.mem_toList.1 hresult))
  rw [callCode, List.cons_append, List.cons_append, List.forall_mem_cons, List.forall_mem_append,
    List.forall_mem_append, List.forall_mem_cons]
  exact ⟨by decide, ⟨hparameters, hdispatch⟩, by decide, hresult⟩

/-- The code of a node shows texts of its own attributes and of its parameters, and operators. -/
theorem scheme_unbroken (hchildren : ∀ child ∈ node.children, child.attributes.Unbroken) (c : Construct)
    (base length : Nat) :
    (∀ instruction ∈ (scheme c node base length).opening, instruction.Unbroken) ∧
      ∀ instruction ∈ (scheme c node base length).closing, instruction.Unbroken := by
  have shown {instruction : Instruction} {key : String} (hkey : key ∉ quotedKeys)
      (hraw : instruction.raw? = some (operand node key)) : instruction.Unbroken :=
    Instruction.unbroken_of_raw hraw (operand_unbroken h hkey)
  have quoted {instruction : Instruction} (hraw : instruction.raw? = none) : instruction.Unbroken :=
    Instruction.unbroken_of_quoted hraw
  have call {dispatch : List Instruction} := @callCode_unbroken node h hchildren dispatch
  -- what is neither an operand of the node nor quoted is a fixed text, such as an operator
  cases c with
  | block | label | ret =>
    rw [scheme]
    decide
  | ifThen =>
    simp only [scheme, List.forall_mem_cons]
    exact ⟨⟨general_unbroken h, by decide, shown (by decide) rfl, by decide, quoted rfl, by decide,
      by decide⟩, by decide, by decide, by decide⟩
  | whileLoop =>
    simp only [scheme, List.forall_mem_cons]
    exact ⟨⟨general_unbroken h, by decide, shown (by decide) rfl, by decide, quoted rfl, by decide,
      by decide⟩, by decide, quoted rfl, by decide⟩
  | forLoop =>
    simp only [scheme, List.forall_mem_cons]
    exact ⟨⟨count_unbroken h, shown (by decide) rfl, quoted rfl, by decide, by decide⟩, by decide,
      by decide, by decide, shown (by decide) rfl, by decide, shown (by decide) rfl, quoted rfl,
      by decide⟩
  | assertion =>
    simp only [scheme, List.forall_mem_cons]
    exact ⟨⟨shown (by decide) rfl, quoted rfl, by decide, by decide⟩, by decide, by decide, by decide⟩
  | set => exact ⟨setCode_unbroken h, List.forall_mem_nil _⟩
  | input =>
    simp only [scheme, List.forall_mem_cons]
    exact ⟨⟨input_unbroken h, shown (by decide) rfl, by decide⟩, by decide⟩
  | buffer => exact ⟨bufferCode_unbroken h, List.forall_mem_nil _⟩
  | math =>
    have houtput : '\n' ∉ ((node.attribute? "output").getD (operand node "left")).toList := by
      cases hvalue : node.attribute? "output" with
      | none => exact operand_unbroken h (by decide)
      | some output => exact attribute_unbroken h (by decide) hvalue
    simp only [scheme, List.forall_mem_cons]
    exact ⟨⟨general_unbroken h, by decide, shown (by decide) rfl, shown (by decide) rfl,
      Instruction.unbroken_of_raw rfl houtput, by decide⟩, by decide⟩
  | goto => exact ⟨List.forall_mem_singleton.2 (shown (by decide) rfl), List.forall_mem_nil _⟩
  | call | exec | subroutine =>
    exact ⟨call (List.forall_mem_singleton.2 (shown (by decide) rfl)), List.forall_mem_nil _⟩
  | memberCall =>
    refine ⟨call ?_, List.forall_mem_nil _⟩
    rw [List.forall_mem_cons, List.forall_mem_singleton]
    exact ⟨quoted rfl, shown (by decide) rfl⟩

end Unbroken

theorem raw?_link (labels : SortedMap Nat) (instruction : Instruction) :
    (instruction.link labels).raw? = instruction.raw? := by
  cases instruction with
  | goto label target => cases target <;> rfl
  | _ => rfl

/-- The code of nodes shows the texts of nodes that are reached, and of their children. -/
theorem linked_unbroken {nodes : List Node}
    (h : ∀ n ∈ reachedAll nodes,
      n.attributes.Unbroken ∧ ∀ child ∈ n.children, child.attributes.Unbroken) :
    ∀ instruction ∈ linked nodes, instruction.Unbroken := by
  rw [linked, List.forall_mem_map]
  intro instruction hmem
  have hunlinked : instruction.Unbroken := by
    rw [unlinked, List.mem_append, List.mem_singleton] at hmem
    rcases hmem with hmem | rfl
    · obtain ⟨n, hn, c, -, base, length, hscheme⟩ := exists_scheme_of_mem hmem
      obtain ⟨hopening, hclosing⟩ := scheme_unbroken (h n hn).1 (h n hn).2 c base length
      exact hscheme.elim (hopening instruction) (hclosing instruction)
    · decide
  intro name hname
  rw [raw?_link] at hname
  exact hunlinked name hname

end Lowering

theorem Header.unbroken_describedBy {node : Node} (hnode : node.attributes.Unbroken)
    (hchildren : ∀ child ∈ node.children, child.attributes.Unbroken) :
    (Header.describedBy node).Unbroken := by
  have hshown {node : Node} {key : String} (h : node.attributes.Unbroken) (hkey : key ∉ quotedKeys) :
      feedsMarked ((node.attribute? key).getD "").toList :=
    Text.feedsMarked_of_notMem (Lowering.operand_unbroken h hkey)
  have hfound {node : Node} {key text : String} (h : node.attributes.Unbroken) (hkey : key ∉ quotedKeys)
      (htext : text ∈ (node.attribute? key).toList) : feedsMarked text.toList :=
    Text.feedsMarked_of_notMem (Lowering.attribute_unbroken h hkey (Option.mem_toList.1 htext))
  rw [Header.Unbroken, Header.raw, List.forall_mem_cons, List.forall_mem_append]
  refine ⟨hshown hnode (by decide), fun text htext => hfound hnode (by decide) htext, ?_⟩
  rw [Header.describedBy]
  cases houtput : (node.partsOf .output).head? with
  | none => exact List.forall_mem_nil _
  | some output =>
    have hmem : output ∈ node.children :=
      (List.mem_filter.1 (List.mem_of_mem_head? houtput)).1
    rw [Option.map_some, Option.map_some, Option.getD_some, List.forall_mem_cons]
    exact ⟨hshown (hchildren output hmem) (by decide),
      fun text htext => hfound (hchildren output hmem) (by decide) htext⟩

namespace Compiler

open Lowering

/-- If the attributes of a script have no line feeds, then no text breaks a line of the listing. -/
theorem unbroken_of_isScript {grammar : Grammar} {document : Document} {header code : Node}
    (hscript : IsScript grammar document header code) (h : document.Unbroken) :
    Executable.Unbroken ⟨Header.describedBy header, (linked code.children).toArray⟩ := by
  have hheader : (Node.ofElement document.root).Below header :=
    .child (List.mem_filter.1 (hscript.one_header ▸ List.mem_singleton_self header)).1
  have hcode : (Node.ofElement document.root).Below code :=
    .child (List.mem_filter.1 (hscript.one_code ▸ List.mem_singleton_self code)).1
  refine ⟨Header.unbroken_describedBy (h.below hheader) fun child hchild =>
    h.below (.deeper hheader hchild), fun instruction hmem => ?_⟩
  refine linked_unbroken (fun n hn => ?_) instruction (List.mem_toArray.1 hmem)
  have hbelow := below_of_reached hcode hn
  exact ⟨h.below hbelow, fun child hchild => h.below (.deeper hbelow hchild)⟩

/-- The listing of an executable can be read line by line just when no text breaks a line: none of the
operands that are shown as they are has a line feed, and in the texts of the header a semicolon follows
every line feed. So it can be if the attributes of the document have no line feeds, those for literals
and expressions apart. -/
theorem compile_lists_by_line {grammar : Grammar} {document : Document} {order : LabelOrder}
    {session : Session} {executable : Executable}
    (h : (compile ⟨grammar, .standard⟩ document order session).1 = .ok executable) :
    (executable.Lined ↔
      (∀ instruction ∈ executable.code, ∀ name ∈ instruction.raw?, '\n' ∉ name.toList) ∧
        ∀ text ∈ executable.header.raw, feedsMarked text.toList) ∧
      (document.Unbroken → executable.Lined) := by
  refine ⟨?_, fun hdocument => ?_⟩
  · rw [Executable.lined_iff_unbroken]
    exact ⟨fun hunbroken => ⟨hunbroken.code, hunbroken.header⟩, fun htexts => ⟨htexts.2, htexts.1⟩⟩
  · obtain ⟨header, code, hscript, rfl⟩ := compile_ok_iff.1 h
    exact Executable.lined_of_unbroken (unbroken_of_isScript hscript hdocument)

/-- A script with line feeds where a listing has none: in a literal, in an expression, in a text and
in a note. -/
def wrapped : Document where
  root := {
    tag := "script"
    children := [
      { tag := "header"
        attributes := .ofList [("name", "wrapped"), ("uid", "w-1"), ("version-number", "1.0")]
        children := [
          { tag := "note", text := some "two\nlines" },
          { tag := "output", attributes := .ofList [("name", "sum"), ("type", "int")] }] },
      { tag := "code"
        children := [
          { tag := "set", attributes := .ofList [("name", "a"), ("value", "1\n2")] },
          { tag := "if"
            attributes := .ofList [("item", "a"), ("eval", "1\n+ 2")]
            children := [
              { tag := "buffer", attributes := .ofList [("name", "b")], text := some "c\nd" }] }] }] }

/-- The script, compiled. -/
def wrappedExecutable : Executable where
  header := {
    name := "wrapped"
    uid := some "w-1"
    version := ⟨1, 0⟩
    note := some "two\nlines"
    output := some ⟨"sum", some "int"⟩ }
  code := #[
    .loadLiteral "1\n2", .store "a", .eval "1\n+ 2", .moveRight, .fetch "a", .arith "-",
    .condJump .equal (some 11), .scopeEnter, .loadLiteral "c\nd", .merge "b", .scopeExit, .nop, .nop]

theorem compile_wrapped :
    (compile ⟨.standard, .standard⟩ wrapped .byName {}).1 = .ok wrappedExecutable :=
  Fallible.eq_ok_of_toOption (by decide +kernel)

theorem wrapped_lists_by_line :
    (compile ⟨.standard, .standard⟩ wrapped .byName {}).1 = .ok wrappedExecutable ∧ wrapped.Unbroken ∧
      wrappedExecutable.Lined :=
  have hunbroken : wrapped.Unbroken := by decide +kernel
  ⟨compile_wrapped, hunbroken, (compile_lists_by_line compile_wrapped).2 hunbroken⟩

/-- A script that sets a variable with a line feed in its name. -/
def splitName : Document where
  root := {
    tag := "script"
    children := [
      { tag := "header", attributes := .ofList [("name", "split"), ("version-number", "1.0")] },
      { tag := "code"
        children := [{ tag := "set", attributes := .ofList [("name", "a\nb"), ("value", "1")] }] }] }

/-- The script, compiled. -/
def splitNameExecutable : Executable where
  header := { name := "split", version := ⟨1, 0⟩ }
  code := #[.loadLiteral "1", .store "a\nb", .nop]

/-- A name is shown as it is, so a line feed in it ends a line of the listing within an instruction. -/
theorem splitName_breaks_line :
    (compile ⟨.standard, .standard⟩ splitName .byName {}).1 = .ok splitNameExecutable ∧
      splitNameExecutable.listing = "; split v1.0\n0: load    \"1\"\n1: store   a\nb\n2: nop\n" ∧
      ¬ splitNameExecutable.Lined := by
  refine ⟨Fallible.eq_ok_of_toOption (by decide +kernel), by decide +kernel, fun hlined => ?_⟩
  have hstore := (Executable.unbroken_of_lined hlined).code (.store "a\nb") (by decide +kernel)
  exact absurd hstore (by decide)

end Compiler

end TreeScript
