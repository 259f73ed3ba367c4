import Mathlib
import TreeScript.Grammar.Standard
import TreeScript.Proofs.TextLines
import TreeScript.Proofs.Violations

/-!
# Texts of trails

Messages name an element by the text of its trail. Tags may look like steps themselves, with brackets and
digits, but as long as none has a slash in it the text can be read in one way only: it is cut at the
slashes, and each step at its last bracket. So no two elements of a document are named alike.
-/

namespace TreeScript

/-! ## 1. Reading the text of a trail -/

namespace Trail

/-- The text of a step. -/
def stepText (step : String × Nat) : String :=
  step.1 ++ "[" ++ step.2.repr ++ "]"

theorem text_eq (trail : Trail) :
    trail.text = "/".intercalate (trail.root :: trail.steps.map stepText) := rfl

/-- The index of a step is what stands behind its last bracket. -/
theorem stepText_inj {step step' : String × Nat} (h : stepText step = stepText step') :
    step = step' := by
  have hbracket (n : Nat) : '[' ∉ n.repr.toList ++ [']'] := by
    rw [List.mem_append, not_or]
    exact ⟨Text.notMem_repr (by decide) n, by decide⟩
  have hchars := congrArg String.toList h
  simp only [stepText, String.toList_append, List.append_assoc] at hchars
  obtain ⟨htag, hindex⟩ := Text.cut_last_inj (hbracket step.2) (hbracket step'.2) hchars
  have hrepr : step.2.repr = step'.2.repr := String.toList_inj.1 (List.append_cancel_right hindex)
  exact Prod.ext (String.toList_inj.1 htag) (Nat.repr_inj.1 hrepr)

theorem slash_notMem_stepText {step : String × Nat} (h : '/' ∉ step.1.toList) :
    '/' ∉ (stepText step).toList := by
  simp only [stepText, String.toList_append, List.mem_append, not_or]
  exact ⟨⟨⟨h, by decide⟩, Text.notMem_repr (by decide) step.2⟩, by decide⟩

/-- No tag on the trail has a slash in it. -/
structure Slashless (trail : Trail) : Prop where
  root : '/' ∉ trail.root.toList
  steps : ∀ step ∈ trail.steps, '/' ∉ step.1.toList

theorem Slashless.splitOn_text {trail : Trail} (h : trail.Slashless) :
    trail.text.toList.splitOn '/' =
      trail.root.toList :: trail.steps.map fun step => (stepText step).toList := by
  rw [text_eq, String.toList_intercalate, List.map_cons, List.map_map]
  apply List.splitOn_intercalate '/'
  · rw [List.forall_mem_cons, List.forall_mem_map]
    exact ⟨h.root, fun step hstep => slash_notMem_stepText (h.steps step hstep)⟩
  · exact List.cons_ne_nil _ _

/-- Trails with the same text are the same. -/
theorem Slashless.text_inj {trail trail' : Trail} (h : trail.Slashless) (h' : trail'.Slashless)
    (htext : trail.text = trail'.text) : trail = trail' := by
  obtain ⟨hroot, hsteps⟩ := List.cons.inj
    (h.splitOn_text.symm.trans ((congrArg (·.toList.splitOn '/') htext).trans h'.splitOn_text))
  have hinj : ∀ step step', (stepText step).toList = (stepText step').toList → step = step' :=
    fun step step' hstep => stepText_inj (String.toList_inj.1 hstep)
  cases trail
  cases trail'
  rw [mk.injEq]
  exact ⟨String.toList_inj.1 hroot, (List.map_inj_right hinj).1 hsteps⟩

-- with a slash in a tag one step may look like two
example : text ⟨"a", [("b", 0), ("c", 1)]⟩ = text ⟨"a", [("b[0]/c", 1)]⟩ := by
  decide

end Trail

/-! ## 2. Trails in a document -/

namespace Element

theorem map_snd_stepsAlong {element found : Element} {way : List Nat}
    (h : element.along? way = some found) : (element.stepsAlong way).map Prod.snd = way := by
  induction way generalizing element with
  | nil => rfl
  | cons index way ih =>
    obtain ⟨child, hchild, hfound⟩ := along?_cons_eq_some.1 h
    rw [stepsAlong, hchild, Option.elim_some, List.map_cons, ih hfound]

/-- The steps on a way have the tags of elements of the tree. -/
theorem exists_along?_of_mem_stepsAlong {element : Element} {way : List Nat} {step : String × Nat}
    (h : step ∈ element.stepsAlong way) :
    ∃ way' found, element.along? way' = some found ∧ found.tag = step.1 := by
  induction way generalizing element with
  | nil => cases h
  | cons index way ih =>
    rw [stepsAlong] at h
    cases hchild : element.children[index]? with
    | none =>
      rw [hchild] at h
      cases h
    | some child =>
      rw [hchild, Option.elim_some, List.mem_cons] at h
      rcases h with rfl | h
      · exact ⟨[index], child, along?_cons_eq_some.2 ⟨child, hchild, rfl⟩, rfl⟩
      · obtain ⟨way', found, hfound, htag⟩ := ih h
        exact ⟨index :: way', found, along?_cons_eq_some.2 ⟨child, hchild, hfound⟩, htag⟩

/-- No tag of the tree has a slash in it. -/
def Slashless (root : Element) : Prop :=
  ∀ way element, root.along? way = some element → '/' ∉ element.tag.toList

theorem Slashless.trailAlong {root : Element} (h : root.Slashless) (way : List Nat) :
    (root.trailAlong way).Slashless where
  root := h [] root rfl
  steps step hstep := by
    obtain ⟨way', found, hfound, htag⟩ := exists_along?_of_mem_stepsAlong hstep
    rw [← htag]
    exact h way' found hfound

/-- The text of a trail tells the way. -/
theorem Slashless.text_trailAlong_inj {root element element' : Element} {way way' : List Nat}
    (h : root.Slashless) (hway : root.along? way = some element)
    (hway' : root.along? way' = some element')
    (htext : (root.trailAlong way).text = (root.trailAlong way').text) : way = way' := by
  have htrail : root.trailAlong way = root.trailAlong way' :=
    (h.trailAlong way).text_inj (h.trailAlong way') htext
  calc way
    _ = (root.trailAlong way).steps.map Prod.snd := (map_snd_stepsAlong hway).symm
    _ = (root.trailAlong way').steps.map Prod.snd := by rw [htrail]
    _ = way' := map_snd_stepsAlong hway'

end Element

/-! ## 3. What validation shows -/

/-- The entry about a breach begins with the text of its trail. -/
theorem Breach.exists_message_entry (breach : Breach) (trail : Trail) (tag : String) :
    ∃ rest, (breach.entry trail tag).message = trail.text ++ ": " ++ rest := by
  have hlead {lead : String} (words : String) (h : lead = ": " ++ words) :
      ∃ rest, trail.text ++ lead = trail.text ++ ": " ++ rest :=
    ⟨words, by rw [h, String.append_assoc]⟩
  -- the parts of a message that follow do not change how it begins
  have hmore {text : String} (more : String) (h : ∃ rest, text = trail.text ++ ": " ++ rest) :
      ∃ rest, text ++ more = trail.text ++ ": " ++ rest := by
    obtain ⟨rest, rfl⟩ := h
    exact ⟨rest ++ more, String.append_assoc⟩
  cases breach with
  | unknown => exact hmore _ (hmore _ (hlead "unknown element <" rfl))
  | unaccepted key => exact hmore _ (hmore _ (hmore _ (hmore _ (hlead "attribute " rfl))))
  | missing key => exact hmore _ (hmore _ (hmore _ (hlead "<" rfl)))
  | text => exact hmore _ (hmore _ (hlead "<" rfl))
  | misplaced index child => exact hmore _ (hmore _ (hmore _ (hmore _ (hlead "<" rfl))))

namespace Grammar

/-- The tree of nodes that validation builds of a document, whether it hands it out or not. -/
def treeOf (grammar : Grammar) (document : Document) (d : Diagnostics) : Node :=
  (grammar.validateElement ⟨document.root.tag, []⟩ document.root d).1

theorem treeOf_eq (grammar : Grammar) (document : Document) (d : Diagnostics) :
    grammar.treeOf document d = Node.ofElement document.root := by
  rw [treeOf, validateElement_apply, Node.ofElement]

/-- The node at a way has the trail of the element there. -/
theorem exists_along?_treeOf {document : Document} {way : List Nat} {element : Element}
    (h : document.root.along? way = some element) (grammar : Grammar) (d : Diagnostics) :
    ∃ shown, (grammar.treeOf document d).along? way = some shown ∧
      shown.trail = document.root.trailAlong way := by
  refine ⟨Node.ofElementAt (document.root.trailAlong way) element, ?_,
    (Node.shows_ofElementAt _ element).trail⟩
  rw [treeOf_eq, Node.ofElement, Node.along?_ofElementAt, h]
  rfl

/-- Messages identify elements. If no tag has a slash in it, the nodes at two different ways of a document
show different texts of their trails. The tree that validation hands out has these nodes, and each entry
that it reports about an element begins with the text that the node of the element shows. -/
theorem validate_paths_distinct {document : Document} (htags : document.root.Slashless)
    (grammar : Grammar) (d : Diagnostics) :
    (∀ way way' element element', document.root.along? way = some element →
      document.root.along? way' = some element' → way ≠ way' →
      ∃ shown shown', (grammar.treeOf document d).along? way = some shown ∧
        (grammar.treeOf document d).along? way' = some shown' ∧
        shown.trail.text ≠ shown'.trail.text) ∧
    (∀ node, (grammar.validate document d).1 = some node → node = grammar.treeOf document d) ∧
    (grammar.validate document d).2.entries.toList =
      d.entries.toList ++ (grammar.findings document).map (Finding.entry grammar document) ∧
    ∀ way element breach, .committed way element breach ∈ grammar.findings document →
      ∃ shown rest, (grammar.treeOf document d).along? way = some shown ∧
        (Finding.entry grammar document (.committed way element breach)).message =
          shown.trail.text ++ ": " ++ rest := by
  refine ⟨?_, ?_, ?_, ?_⟩
  · intro way way' element element' hway hway' hne
    obtain ⟨shown, hshown, htrail⟩ := exists_along?_treeOf hway grammar d
    obtain ⟨shown', hshown', htrail'⟩ := exists_along?_treeOf hway' grammar d
    refine ⟨shown, shown', hshown, hshown', fun htext => hne ?_⟩
    rw [htrail, htrail'] at htext
    exact htags.text_trailAlong_inj hway hway' htext
  · intro node hnode
    rw [validate_apply, Option.ite_none_right_eq_some] at hnode
    rw [treeOf_eq, Option.some.inj hnode.2]
  · rw [validate_apply, Diagnostics.entries_reportAll, Array.toList_append, violationsOf_eq_map]
  · intro way element breach hfinding
    obtain ⟨hway, -⟩ := mem_findings.1 hfinding
    obtain ⟨shown, hshown, htrail⟩ := exists_along?_treeOf hway grammar d
    obtain ⟨rest, hmessage⟩ :=
      breach.exists_message_entry (document.root.trailAlong way) element.tag
    refine ⟨shown, rest, hshown, ?_⟩
    rw [htrail]
    exact hmessage

/-- Children whose tags look like steps. -/
def bracketed : Document where
  root := {
    tag := "x"
    children := [
      { tag := "x[0]", children := [{ tag := "x" }, { tag := "x[1]" }] },
      { tag := "x" },
      { tag := "x[1]" }] }

theorem bracketed_paths_distinct :
    bracketed.root.Slashless ∧
    ∃ shown shown', (standard.treeOf bracketed {}).along? [1] = some shown ∧
      (standard.treeOf bracketed {}).along? [2] = some shown' ∧
      shown.trail.text ≠ shown'.trail.text := by
  have htags : ∀ place ∈ bracketed.root.waysIn, '/' ∉ place.2.tag.toList := by decide
  have hslashless : bracketed.root.Slashless := fun way element hway =>
    htags (way, element) ((Element.mem_waysIn _).2 hway)
  exact ⟨hslashless,
    (validate_paths_distinct hslashless standard {}).1 [1] [2] _ _ rfl rfl (by decide)⟩

end Grammar

end TreeScript
