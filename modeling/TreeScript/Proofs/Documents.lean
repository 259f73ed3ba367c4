import TreeScript.Document.Basic
import TreeScript.Proofs.JsonShapes
import TreeScript.Proofs.SortedMap

/-!
# Documents that are read back

A tree of elements is written as JSON with two brackets open for each level: the object of an element
and the list of its children. A reader that may open 127 brackets reads trees of 63 levels back, since
the deepest elements open one more for their attributes.
-/

namespace TreeScript

open Json

namespace Element

/-! ## 1. Levels -/

mutual

/-- The number of levels of a tree. -/
def depth : Element → Nat
  | ⟨_, _, children, _⟩ => depthAmong children + 1

/-- The number of levels of the deepest of some trees. -/
def depthAmong : List Element → Nat
  | [] => 0
  | element :: elements => max element.depth (depthAmong elements)

end

theorem listToJson_eq_map (elements : List Element) : listToJson elements = elements.map toJson := by
  induction elements with
  | nil => rfl
  | cons element elements ih => rw [listToJson, ih, List.map_cons]

/-! ## 2. Reading -/

/-- An element is read back if its children are and a bracket is left for its attributes. -/
theorem layout_reads (element : Element) {child : Json.Reader Element} {depth : Nat}
    (hdepth : depth ≠ 0) (hchildren : ∀ e ∈ element.children, Reads child e.toJson e) :
    Reads (Json.record (depth + 1) (layout depth child)) element.toJson element := by
  obtain ⟨tag, attributes, children, text⟩ := element
  have hattributes : Reads (Json.map depth Json.string)
      (.object (attributes.entries.map fun entry => (entry.1, .string entry.2))) attributes.entries :=
    map_reads (fun entry _ => string_reads entry.2) hdepth
  have hlist : Reads (Json.list depth child) (.list (listToJson children)) children := by
    rw [listToJson_eq_map]
    exact list_reads hchildren hdepth
  -- the text is the only field that may be absent
  have htext : Fills (layout depth child).fields
      { tag := some tag, attributes := some attributes, children := some children }
      (text.map fun text => ("text", Value.string text)).toList
      { tag := some tag, attributes := some attributes, children := some children
        text := text.map some } := by
    cases text with
    | none => exact .nil
    | some text => exact .cons rfl rfl ((optional_reads_some (string_reads text) nofun).map _) .nil
  have hstore := hattributes.map fun entries (fields : Fields) =>
    { fields with attributes := some (SortedMap.ofList entries) }
  rw [SortedMap.ofList_entries] at hstore
  refine record_reads (.cons rfl rfl ((string_reads tag).map _)
    (.cons rfl rfl hstore (.cons rfl rfl (hlist.map _) htext))) ?_ (Nat.succ_ne_zero depth)
  cases text <;> rfl

mutual

/-- An element is read back where two brackets may be opened for each of its levels. -/
theorem reader_reads (element : Element) {brackets : Nat} (h : 2 * element.depth ≤ brackets) :
    Reads (reader brackets) element.toJson element := by
  obtain ⟨tag, attributes, children, text⟩ := element
  rw [depth] at h
  obtain ⟨inner, rfl⟩ : ∃ inner, brackets = inner + 2 := ⟨brackets - 2, by omega⟩
  exact layout_reads _ (Nat.succ_ne_zero inner) (reads_among children (by omega))

theorem reads_among (elements : List Element) {brackets : Nat}
    (h : 2 * depthAmong elements ≤ brackets) :
    ∀ element ∈ elements, Reads (reader brackets) element.toJson element := by
  cases elements with
  | nil => exact List.forall_mem_nil _
  | cons element elements =>
    rw [depthAmong] at h
    rw [List.forall_mem_cons]
    exact ⟨reader_reads element (by omega), reads_among elements (by omega)⟩

end

end Element

namespace Document

/-- A tree of at most 63 levels is parsed back from its JSON, in whatever way blanks stand between the
tokens of the text and whatever is in its tags, attributes and texts. -/
theorem parse_serialised (element : Element) (hdepth : element.depth ≤ 63) (path : File.Path) :
    parse ⟨String.ofList element.toJson.compact, path⟩ = .ok ⟨some path, element⟩ ∧
      ∀ text : String, Written element.toJson text.toList →
        parse ⟨text, path⟩ = .ok ⟨some path, element⟩ := by
  have hreads : Reads (Element.reader Json.maxDepth) element.toJson element :=
    element.reader_reads (by show _ ≤ 127; omega)
  have hparse (text : String) (htext : Written element.toJson text.toList) :
      parse ⟨text, path⟩ = .ok ⟨some path, element⟩ := by
    have hread := hreads.read htext blanks_nil blanks_nil
    rw [List.nil_append, List.append_nil] at hread
    rw [parse, Element.read, hread]
  refine ⟨hparse _ ?_, hparse⟩
  rw [String.toList_ofList]
  exact written_compact element.toJson

/-- A tree with one level more than `n`, whose strings need escapes. -/
def tower : Nat → Element
  | 0 => { tag := "", attributes := .ofList [("key", "\"\\\x00"), ("", "é")], text := some "" }
  | n + 1 => { tag := "a/b[0]\n", children := [{ tag := "leaf" }, tower n], text := some "\x1f😀" }

theorem depth_tower (n : Nat) : (tower n).depth = n + 1 := by
  induction n with
  | zero => rfl
  | succ n ih =>
    show max 1 (max (tower n).depth 0) + 1 = n + 1 + 1
    omega

theorem tower_parsed :
    (tower 62).depth = 63 ∧
      parse ⟨String.ofList (tower 62).toJson.compact, "tower.json"⟩ =
        .ok ⟨some "tower.json", tower 62⟩ := by
  have hdepth : (tower 62).depth = 63 := depth_tower 62
  exact ⟨hdepth, (parse_serialised (tower 62) (Nat.le_of_eq hdepth) "tower.json").1⟩

end Document

end TreeScript
