import TreeScript.Grammar.Declaration
import TreeScript.Proofs.Run
import TreeScript.Proofs.SortedMap

/-!
# Declarations of grammars

A declaration is built into a grammar just when it is consistent: everything that it names is declared,
and no element requires an attribute that it does not accept. The grammar then has the rules that were
declared, with the members of groups in the place of the groups.

* `Declaration.Consistent` says what is checked, without the order in which it is checked.
* `Rule.Realizes` and `Grammar.Realizes` say what is built.
-/

namespace TreeScript

open Grammar (Declaration ElementDeclaration)

/-! ## 1. Consistent declarations and their grammars -/

/-- An item of a list of children that names something: a group behind an at sign, or else a tag. -/
def Grammar.Declaration.Names (declaration : Declaration) (child : String) : Prop :=
  (∃ group, child = "@" ++ group ∧ declaration.groups.contains group) ∨
    (child.toList.head? ≠ some '@' ∧ declaration.elements.contains child)

/-- A declaration that names only what it declares. -/
structure Grammar.Declaration.Consistent (declaration : Declaration) : Prop where
  root : declaration.elements.contains declaration.root
  groups : ∀ group members, declaration.groups.get? group = some members →
    ∀ member ∈ members, declaration.elements.contains member
  required : ∀ tag element, declaration.elements.get? tag = some element →
    ∀ key ∈ element.required, key ∈ element.attributes
  children : ∀ tag element, declaration.elements.get? tag = some element →
    ∀ child ∈ element.children, declaration.Names child

/-- A rule with just what the declaration of an element says. The members of a group are tags, even if
they look like groups. -/
structure Rule.Realizes (rule : Rule) (declaration : Declaration) (element : ElementDeclaration) :
    Prop where
  attributes : ∀ key, rule.attributes.contains key ↔ key ∈ element.attributes
  required : ∀ key, rule.required.contains key ↔ key ∈ element.required
  text : rule.text = element.text
  children : ∀ child, rule.children.contains child ↔
    (child ∈ element.children ∧ child.toList.head? ≠ some '@') ∨
      ∃ group members, "@" ++ group ∈ element.children ∧
        declaration.groups.get? group = some members ∧ child ∈ members

namespace Grammar

/-- A grammar with a rule for each element of a declaration, and for no other. -/
structure Realizes (grammar : Grammar) (declaration : Declaration) : Prop where
  id : grammar.id = declaration.id
  root : grammar.root = declaration.root
  tags : ∀ tag, grammar.declares tag ↔ declaration.elements.contains tag
  rules : ∀ tag rule, grammar.rule? tag = some rule →
    ∃ element, declaration.elements.get? tag = some element ∧ rule.Realizes declaration element

/-- A grammar whose rules can be kept: they accept what they require, and what may stand in an element
has a rule of its own. -/
structure Closed (grammar : Grammar) : Prop where
  children : ∀ tag rule, grammar.rule? tag = some rule →
    ∀ child, rule.children.contains child → grammar.declares child
  required : ∀ tag rule, grammar.rule? tag = some rule →
    ∀ key, rule.required.contains key → rule.attributes.contains key

namespace Declaration

variable {declaration : Declaration}

/-! ## 2. The checks -/

theorem checkRoot_eq_ok :
    declaration.checkRoot = .ok () ↔ declaration.elements.contains declaration.root := by
  unfold checkRoot
  split
  next h => simp [h]
  next h => simp [h]

theorem checkGroup_eq_ok {group : String × List String} :
    declaration.checkGroup group = .ok () ↔
      ∀ member ∈ group.2, declaration.elements.contains member := by
  unfold checkGroup
  cases hfound : group.2.find? fun member => !declaration.elements.contains member with
  | none => simpa using hfound
  | some member =>
    have hmem := List.mem_of_find?_eq_some hfound
    have hundeclared := List.find?_some hfound
    simp only [reduceCtorEq, false_iff]
    intro hall
    simp [hall member hmem] at hundeclared

theorem eq_at_iff {child group : String} :
    child = "@" ++ group ↔ child.toList = '@' :: group.toList := by
  rw [← String.toList_inj, String.toList_append]
  rfl

/-- An item behind an at sign is looked up among the groups only, any other one among the elements. -/
theorem expandChild_eq_ok {tag child : String} {tags : List String} :
    declaration.expandChild tag child = .ok tags ↔
      (∃ group, child = "@" ++ group ∧ declaration.groups.get? group = some tags) ∨
        (child.toList.head? ≠ some '@' ∧ declaration.elements.contains child ∧ tags = [child]) := by
  simp only [eq_at_iff]
  unfold expandChild
  split
  next group hchild =>
    simp only [hchild, List.head?_cons, ne_eq, not_true_eq_false, false_and, or_false, List.cons.injEq,
      true_and]
    constructor
    · intro h
      refine ⟨String.ofList group, String.toList_ofList.symm, ?_⟩
      split at h
      next members hmembers =>
        cases h
        exact hmembers
      next => cases h
    · rintro ⟨other, rfl, hmembers⟩
      rw [String.ofList_toList, hmembers]
  next hchild =>
    have hhead : child.toList.head? ≠ some '@' := by
      intro h
      obtain ⟨rest, hrest⟩ := List.head?_eq_some_iff.1 h
      exact hchild rest hrest
    constructor
    · intro h
      split at h
      next hdeclared =>
        cases h
        exact .inr ⟨hhead, hdeclared, rfl⟩
      next => cases h
    · rintro (⟨group, hgroup, -⟩ | ⟨-, hdeclared, rfl⟩)
      · exact absurd hgroup (hchild group.toList)
      · rw [if_pos hdeclared]

/-- The tags that the items of a list of children stand for. -/
theorem mem_flatten_of_mapM {tag : String} {children : List String} {lists : List (List String)}
    (h : children.mapM (declaration.expandChild tag) = .ok lists) (child : String) :
    child ∈ lists.flatten ↔
      (child ∈ children ∧ child.toList.head? ≠ some '@') ∨
        ∃ group members, "@" ++ group ∈ children ∧
          declaration.groups.get? group = some members ∧ child ∈ members := by
  simp only [List.mem_flatten, Fallible.mem_of_mapM_eq_ok h, expandChild_eq_ok]
  constructor
  · rintro ⟨tags, ⟨item, hitem, ⟨group, rfl, hmembers⟩ | ⟨hplain, -, rfl⟩⟩, hchild⟩
    · exact .inr ⟨group, tags, hitem, hmembers, hchild⟩
    · cases List.mem_singleton.1 hchild
      exact .inl ⟨hitem, hplain⟩
  · rintro (⟨hchild, hplain⟩ | ⟨group, members, hitem, hmembers, hchild⟩)
    · -- an item that was not expanded into itself would have been refused
      obtain ⟨tags, htags⟩ := Fallible.exists_mapM_eq_ok.1 ⟨lists, h⟩ child hchild
      rcases expandChild_eq_ok.1 htags with ⟨group, hgroup, -⟩ | ⟨-, hdeclared, -⟩
      · rw [eq_at_iff.1 hgroup] at hplain
        exact absurd rfl hplain
      · exact ⟨[child], ⟨child, hchild, .inr ⟨hplain, hdeclared, rfl⟩⟩, List.mem_singleton_self child⟩
    · exact ⟨members, ⟨"@" ++ group, hitem, .inl ⟨group, rfl, hmembers⟩⟩, hchild⟩

theorem rule_eq_ok {tag : String} {element : ElementDeclaration} {rule : Rule} :
    declaration.rule tag element = .ok rule ↔
      (∀ key ∈ element.required, key ∈ element.attributes) ∧
        ∃ lists, element.children.mapM (declaration.expandChild tag) = .ok lists ∧
          ⟨.ofNames element.attributes, .ofNames element.required, .ofNames lists.flatten,
            element.text⟩ = rule := by
  unfold Declaration.rule
  cases hfound : element.required.find? fun key => !element.attributes.contains key with
  | none =>
    have hall : ∀ key ∈ element.required, key ∈ element.attributes := by simpa using hfound
    change (_ >>= _) = _ ↔ _
    rw [Fallible.bind_eq_ok, and_iff_right hall]
    simp only [Fallible.pure_eq_ok]
  | some key =>
    have hmem := List.mem_of_find?_eq_some hfound
    have hrefused : key ∉ element.attributes := by simpa using List.find?_some hfound
    exact iff_of_false nofun fun h => hrefused (h.1 key hmem)

theorem exists_expandChild_iff {tag child : String} :
    (∃ tags, declaration.expandChild tag child = .ok tags) ↔ declaration.Names child := by
  simp only [expandChild_eq_ok, Names, SortedMap.contains, Option.isSome_iff_exists]
  constructor
  · rintro ⟨tags, ⟨group, hgroup, hmembers⟩ | ⟨hplain, hdeclared, -⟩⟩
    · exact .inl ⟨group, hgroup, tags, hmembers⟩
    · exact .inr ⟨hplain, hdeclared⟩
  · rintro (⟨group, hgroup, members, hmembers⟩ | ⟨hplain, hdeclared⟩)
    · exact ⟨members, .inl ⟨group, hgroup, hmembers⟩⟩
    · exact ⟨[child], .inr ⟨hplain, hdeclared, rfl⟩⟩

theorem exists_rule_iff {tag : String} {element : ElementDeclaration} :
    (∃ rule, declaration.rule tag element = .ok rule) ↔
      (∀ key ∈ element.required, key ∈ element.attributes) ∧
        ∀ child ∈ element.children, declaration.Names child := by
  simp only [rule_eq_ok, ← @exists_expandChild_iff declaration tag, ← Fallible.exists_mapM_eq_ok]
  constructor
  · rintro ⟨rule, hrequired, lists, hlists, -⟩
    exact ⟨hrequired, lists, hlists⟩
  · rintro ⟨hrequired, lists, hlists⟩
    exact ⟨_, hrequired, lists, hlists, rfl⟩

/-- The rule that is built is the one that is declared. -/
theorem realizes_of_rule {tag : String} {element : ElementDeclaration} {rule : Rule}
    (h : declaration.rule tag element = .ok rule) : rule.Realizes declaration element := by
  obtain ⟨-, lists, hlists, rfl⟩ := rule_eq_ok.1 h
  refine ⟨fun key => NameSet.contains_ofNames, fun key => NameSet.contains_ofNames, rfl, fun child => ?_⟩
  rw [NameSet.contains_ofNames, mem_flatten_of_mapM hlists]

/-! ## 3. Building -/

theorem build_eq_ok {grammar : Grammar} :
    declaration.build = .ok grammar ↔
      declaration.elements.contains declaration.root ∧
        (∀ group ∈ declaration.groups.entries, ∀ member ∈ group.2,
          declaration.elements.contains member) ∧
        ∃ rules, (declaration.elements.entries.mapM fun entry =>
            (declaration.rule entry.1 entry.2).map fun rule => (entry.1, rule)) = .ok rules ∧
          ⟨declaration.id, declaration.root, .ofList rules⟩ = grammar := by
  unfold build
  rw [Fallible.check_bind_eq_ok, Fallible.check_bind_eq_ok, Fallible.bind_eq_ok, checkRoot_eq_ok,
    Fallible.forM_eq_ok]
  simp only [checkGroup_eq_ok, Fallible.pure_eq_ok]

/-- Every declared element has its rule in the grammar, and every rule is the one of an element. -/
theorem realizes_of_build {grammar : Grammar} (h : declaration.build = .ok grammar) :
    grammar.Realizes declaration := by
  obtain ⟨-, -, rules, hrules, rfl⟩ := build_eq_ok.1 h
  have hmem : ∀ tag rule, (tag, rule) ∈ rules ↔
      ∃ element, declaration.elements.get? tag = some element ∧
        declaration.rule tag element = .ok rule := by
    intro tag rule
    rw [Fallible.mem_of_mapM_eq_ok hrules]
    simp only [Fallible.map_eq_ok]
    constructor
    · rintro ⟨⟨tag', element⟩, hentry, rule', hrule, heq⟩
      cases heq
      exact ⟨element, SortedMap.mem_entries.1 hentry, hrule⟩
    · rintro ⟨element, helement, hrule⟩
      exact ⟨(tag, element), SortedMap.mem_entries.2 helement, rule, hrule, rfl⟩
  refine ⟨rfl, rfl, fun tag => ?_, fun tag rule hrule => ?_⟩
  · change (SortedMap.ofList rules).contains tag ↔ _
    rw [SortedMap.contains_ofList, List.mem_map]
    constructor
    · rintro ⟨⟨tag', rule⟩, hentry, rfl⟩
      obtain ⟨element, helement, -⟩ := (hmem tag' rule).1 hentry
      exact Option.isSome_of_mem helement
    · intro hdeclared
      obtain ⟨element, helement⟩ := Option.isSome_iff_exists.1 hdeclared
      -- no rule is left out, or building would have failed
      obtain ⟨entry, hentry⟩ := Fallible.exists_mapM_eq_ok.1 ⟨rules, hrules⟩ (tag, element)
        (SortedMap.mem_entries.2 helement)
      obtain ⟨rule, hrule, -⟩ := Fallible.map_eq_ok.1 hentry
      exact ⟨(tag, rule), (hmem tag rule).2 ⟨element, helement, hrule⟩, rfl⟩
  · obtain ⟨element, helement, hbuilt⟩ := (hmem tag rule).1 (SortedMap.mem_of_get?_ofList hrule)
    exact ⟨element, helement, realizes_of_rule hbuilt⟩

/-- A declaration is built just when it is consistent. -/
theorem exists_build_iff : (∃ grammar, declaration.build = .ok grammar) ↔ declaration.Consistent := by
  have hrules : (∃ rules, (declaration.elements.entries.mapM fun entry =>
        (declaration.rule entry.1 entry.2).map fun rule => (entry.1, rule)) = .ok rules) ↔
      ∀ tag element, declaration.elements.get? tag = some element →
        (∀ key ∈ element.required, key ∈ element.attributes) ∧
          ∀ child ∈ element.children, declaration.Names child := by
    simp only [Fallible.exists_mapM_eq_ok, Fallible.map_eq_ok, ← SortedMap.mem_entries, Prod.forall]
    refine forall_congr' fun tag => forall_congr' fun element => forall_congr' fun _ => ?_
    rw [← @exists_rule_iff declaration tag]
    constructor
    · rintro ⟨_, rule, hrule, -⟩
      exact ⟨rule, hrule⟩
    · rintro ⟨rule, hrule⟩
      exact ⟨_, rule, hrule, rfl⟩
  simp only [build_eq_ok]
  constructor
  · rintro ⟨grammar, hroot, hgroups, rules, hbuilt, -⟩
    have helements := hrules.1 ⟨rules, hbuilt⟩
    exact {
      root := hroot
      groups := fun group members hmembers => hgroups (group, members) (SortedMap.mem_entries.2 hmembers)
      required := fun tag element helement => (helements tag element helement).1
      children := fun tag element helement => (helements tag element helement).2 }
  · intro h
    obtain ⟨rules, hbuilt⟩ := hrules.2 fun tag element helement =>
      ⟨h.required tag element helement, h.children tag element helement⟩
    refine ⟨_, h.root, fun group hgroup => ?_, rules, hbuilt, rfl⟩
    exact h.groups group.1 group.2 (SortedMap.mem_entries.1 hgroup)

end Declaration

/-- What a consistent declaration realizes is closed. -/
theorem Realizes.closed {grammar : Grammar} {declaration : Declaration}
    (h : grammar.Realizes declaration) (hconsistent : declaration.Consistent) : grammar.Closed := by
  refine ⟨fun tag rule hrule child hchild => ?_, fun tag rule hrule key hkey => ?_⟩
  · obtain ⟨element, helement, hrealizes⟩ := h.rules tag rule hrule
    rw [h.tags]
    rcases (hrealizes.children child).1 hchild with ⟨hmem, hplain⟩ | ⟨group, members, -, hmembers, hmem⟩
    · rcases hconsistent.children tag element helement child hmem with ⟨group, hgroup, -⟩ | ⟨-, hdeclared⟩
      · rw [Declaration.eq_at_iff.1 hgroup] at hplain
        exact absurd rfl hplain
      · exact hdeclared
    · exact hconsistent.groups group members hmembers child hmem
  · obtain ⟨element, helement, hrealizes⟩ := h.rules tag rule hrule
    rw [hrealizes.attributes]
    exact hconsistent.required tag element helement key ((hrealizes.required key).1 hkey)

/-- Building accepts just the consistent declarations, and gives what they declare. -/
theorem build_iff_consistent (declaration : Declaration) :
    ((∃ grammar, declaration.build = .ok grammar) ↔ declaration.Consistent) ∧
      ∀ grammar, declaration.build = .ok grammar →
        grammar.Realizes declaration ∧ grammar.Closed := by
  refine ⟨Declaration.exists_build_iff, fun grammar h => ?_⟩
  have hrealizes := Declaration.realizes_of_build h
  exact ⟨hrealizes, hrealizes.closed (Declaration.exists_build_iff.1 ⟨grammar, h⟩)⟩

/-- A group that is a member of another group is not looked into: here it is the tag of an element. -/
example :
    let declaration : Declaration := {
      id := "nested", root := "a"
      groups := .ofList [("inner", ["a"]), ("outer", ["@inner", "b"])]
      elements := .ofList [("a", { children := ["@outer", "b"] }), ("b", {}), ("@inner", {})] }
    (declaration.build.toOption.bind (·.rule? "a")).map (·.children.keys) = some ["@inner", "b"] := by
  decide +kernel

end Grammar

end TreeScript
