import SchemaCompiler.Proofs.Registry.Arrangement
import SchemaCompiler.Proofs.Resource.Termination

/-!
# Resource schemas of arranged trees

The conversion to a resource schema goes through children by display name. Its checked form,
which always ends, gives the same attributes for an arranged registry; the conversion itself
follows it, and has no end where it had none.
-/

namespace SchemaCompiler
namespace Resource

open SchemaCompiler.Outcome
open SchemaCompiler.Schema

@[simp] theorem within_arranged
    [Name.Lettering]
    (stack : List String)
    (path : FieldPath)
    (node : Node) :
    within stack path node.arranged = within stack path node := by
  simp [within]

theorem factsOf_arranged
    [Name.Lettering]
    (node canonical : Node)
    (exposure : Exposure) :
    factsOf node.arranged canonical.arranged exposure = factsOf node canonical exposure := by
  simp [factsOf, isSecret]

theorem classify_arranged
    [Name.Lettering]
    (node canonical : Node)
    (usage : FieldUsage)
    (path : FieldPath) :
    classify node.arranged canonical.arranged usage path = classify node canonical usage path := by
  simp [classify]

theorem listAttribute_arranged
    [Name.Lettering]
    (facts : AttributeFacts)
    (facets : ArrayFacets)
    (element : Node)
    (type : ElementType) :
    listAttribute facts facets element.arranged type = listAttribute facts facets element type := by
  simp [listAttribute]

/-- A field opens into the same facts and the arranged form of its canonical node. -/
theorem openField_arranged
    [Name.Lettering]
    (registry : Registry)
    (path : FieldPath)
    (usage : FieldUsage)
    (node : Node) :
    openField registry.arranged path usage node.arranged =
      (openField registry path usage node).map (Prod.map id Node.arranged) := by
  unfold openField
  rw [Registry.resolveAt_arranged]
  cases registry.resolveAt path node with
  | error cause => rfl
  | ok canonical =>
      rw [Except.map, ok_bind, ok_bind, classify_arranged]
      cases classify node canonical usage path with
      | error cause => rfl
      | ok exposure =>
          rw [ok_bind, ok_bind, factsOf_arranged]
          rfl

/-- The element type of a list does not depend on the order of children. -/
theorem checkedElement_arranged
    [Name.Lettering]
    (registry : Registry)
    (stack : List String)
    (path : FieldPath)
    (canonical : Node) :
    checkedElement registry.arranged stack path canonical.arranged =
      checkedElement registry stack path canonical := by
  induction stack, canonical using checkedElement_induct registry path with
  | scalar stack declaration facets => rw [Node.arranged_scalar, checkedElement, checkedElement]
  | object stack declaration facets children =>
      rw [Node.arranged_object, checkedElement, checkedElement]
  | unresolved stack declaration facets element cause failed =>
      rw [Node.arranged_array, checkedElement_array, checkedElement_array,
        Registry.resolveAt_arranged, failed]
      rfl
  | array stack declaration facets element inner resolved below =>
      rw [Node.arranged_array, checkedElement_array, checkedElement_array,
        Registry.resolveAt_arranged, within_arranged, resolved, Except.map, ok_bind, ok_bind]
      exact bind_congr_of_ok fun inside entered => by rw [below inside entered]

/-- A checked conversion does not depend on the order of children. -/
theorem checkedConversion_arranged [Name.Lettering] (registry : Registry) :
    (∀ stack path usage node,
      checkedField registry.arranged stack path usage node.arranged =
        checkedField registry stack path usage node) ∧
    (∀ stack path usage facts canonical,
      checkedCanonical registry.arranged stack path usage facts canonical.arranged =
        checkedCanonical registry stack path usage facts canonical) ∧
    ∀ stack path groups usage children,
      checkedFields registry.arranged stack path groups usage (children.map Node.arranged) =
        checkedFields registry stack path groups usage children := by
  apply checked_induct registry
  case unopened =>
    intro stack path usage node cause failed
    rw [checkedField_eq, checkedField_eq, openField_arranged, failed]
    rfl
  case opened =>
    intro stack path usage node facts canonical opened below
    have openedToo := openField_arranged registry path usage node
    rw [opened] at openedToo
    rw [checkedField_of_opened opened, checkedField_of_opened openedToo, within_arranged]
    exact bind_congr_of_ok below
  case scalar =>
    intro stack path usage facts declaration facets
    rw [Node.arranged_scalar, checkedCanonical, checkedCanonical]
  case object =>
    intro stack path usage facts declaration facets children below
    rw [Node.arranged_object, checkedCanonical_object, checkedCanonical_object,
      Node.sorted_sorted, Node.sorted_map_arranged, below]
  case unresolved =>
    intro stack path usage facts declaration facets element cause failed
    have failedToo := Registry.resolveAt_arranged registry path element
    rw [failed] at failedToo
    rw [Node.arranged_array, checkedCanonical_array_of_unresolved failed,
      checkedCanonical_array_of_unresolved failedToo]
  case listOfObjects =>
    intro stack path usage facts declaration facets element innerDeclaration innerFacets children
      resolved below
    have resolvedToo := Registry.resolveAt_arranged registry path element
    rw [resolved, Except.map, Node.arranged_object] at resolvedToo
    rw [Node.arranged_array, checkedCanonical_array_of_object resolved,
      checkedCanonical_array_of_object resolvedToo, within_arranged, Node.sorted_sorted,
      Node.sorted_map_arranged]
    exact bind_congr_of_ok fun inside entered => by rw [below inside entered]
  case list =>
    intro stack path usage facts declaration facets element inner resolved other
    have resolvedToo := Registry.resolveAt_arranged registry path element
    rw [resolved, Except.map] at resolvedToo
    have otherToo : ∀ declaration facets children,
        inner.arranged ≠ .object declaration facets children := by
      cases inner with
      | scalar | array => simp
      | object declaration facets children => exact (other _ _ _ rfl).elim
    rw [Node.arranged_array, checkedCanonical_array_of_other resolved other,
      checkedCanonical_array_of_other resolvedToo otherToo, checkedElement_arranged]
    simp only [Except.map, listAttribute_arranged]
  case nil =>
    intro stack path groups usage
    rw [List.map_nil, checkedFields, checkedFields]
  case cons =>
    intro stack path groups usage child rest first others
    rw [List.map_cons, checkedFields, checkedFields, Node.name_arranged, first, others]

/-- The checked conversion of a namespace does not depend on the order of children. -/
theorem checkedNamespace_arranged
    [Name.Lettering]
    (registry : Registry)
    (usage : UsageIndex)
    (managed : Namespace) :
    checkedNamespace registry.arranged usage managed = checkedNamespace registry usage managed := by
  unfold checkedNamespace
  rw [Registry.root_arranged]
  cases registry.root managed.schema with
  | error cause => rfl
  | ok root =>
      cases root with
      | scalar declaration facets => rw [Except.map, Node.arranged_scalar]
      | array declaration facets element =>
          rw [Except.map, Node.arranged_array]
          rfl
      | object declaration facets children =>
          have walked := Registry.collect_arranged registry (.object declaration facets children)
          rw [Node.arranged_object, Node.sorted_map_arranged] at walked
          rw [Except.map, Node.arranged_object, Node.sorted_map_arranged]
          dsimp only
          rw [walked, ← Node.sorted_map_arranged, Node.sorted_sorted, Node.sorted_map_arranged,
            (checkedConversion_arranged registry).2.2]
          cases registry.collect .expanded (.object declaration facets children) <;> rfl

/-- The checked form determines the outcome of a conversion with nothing in expansion. -/
theorem Faithful.made_eq
    {registry other : Registry}
    {references others : List Node}
    {checked : Except SchemaError α}
    {made madeToo : Option (Except SchemaError α)}
    (faithful : Faithful registry [] references checked made)
    (faithfulToo : Faithful other [] others checked madeToo) :
    made = madeToo := by
  by_cases cycle : ∃ path id, checked = .error (.referenceCycle path id)
  · rw [faithful.eq_none_iff.mpr cycle, faithfulToo.eq_none_iff.mpr cycle]
  · have ended : ∀ path id, checked ≠ .error (.referenceCycle path id) :=
      fun path id same => cycle ⟨path, id, same⟩
    rw [faithful.agrees ended, faithfulToo.agrees ended]

/-- An entry is an object that can be walked if its arranged form is one. -/
theorem exists_walked_of_arranged
    [Name.Lettering]
    {registry : Registry}
    {id : String}
    {declaration : Declaration}
    {facets : ObjectFacets}
    {children : List Node}
    {visits : List Visit}
    (found : registry.arranged.root id = .ok (.object declaration facets children))
    (walked : registry.arranged.collect .expanded (.object declaration facets children) =
      .ok visits) :
    ∃ declaration facets children visits,
      registry.root id = .ok (.object declaration facets children) ∧
        registry.collect .expanded (.object declaration facets children) = .ok visits := by
  rw [Registry.root_arranged] at found
  obtain ⟨entry, foundEntry, same⟩ := map_eq_ok_iff.mp found
  rw [← same, Registry.collect_arranged] at walked
  obtain ⟨visits, walkedEntry, -⟩ := map_eq_ok_iff.mp walked
  cases entry with
  | scalar | array => simp at same
  | object => exact ⟨_, _, _, visits, foundEntry, walkedEntry⟩

/-- The resource schema of a namespace does not depend on the order of children. -/
theorem ofNamespace_arranged
    [Name.Lettering]
    (registry : Registry)
    (usage : UsageIndex)
    (managed : Namespace) :
    ofNamespace registry.arranged usage managed = ofNamespace registry usage managed := by
  have checked := checkedNamespace_arranged registry usage managed
  by_cases isWalked : ∃ declaration facets children visits,
      registry.root managed.schema = .ok (.object declaration facets children) ∧
        registry.collect .expanded (.object declaration facets children) = .ok visits
  · obtain ⟨declaration, facets, children, visits, found, walked⟩ := isWalked
    have foundToo := Registry.root_arranged registry managed.schema
    have walkedToo := Registry.collect_arranged registry (.object declaration facets children)
    rw [found, Except.map, Node.arranged_object] at foundToo
    rw [walked, Except.map, Node.arranged_object] at walkedToo
    have faithful := faithful_checkedNamespace usage found walked
    have faithfulToo := faithful_checkedNamespace usage foundToo walkedToo
    rw [checked] at faithfulToo
    exact faithfulToo.made_eq faithful
  · have notWalked : ∀ declaration facets children visits,
        registry.root managed.schema = .ok (.object declaration facets children) →
          registry.collect .expanded (.object declaration facets children) ≠ .ok visits :=
      fun declaration facets children visits found walked =>
        isWalked ⟨declaration, facets, children, visits, found, walked⟩
    have notWalkedToo : ∀ declaration facets children visits,
        registry.arranged.root managed.schema = .ok (.object declaration facets children) →
          registry.arranged.collect .expanded (.object declaration facets children) ≠
            .ok visits :=
      fun _ _ _ _ found walked => isWalked (exists_walked_of_arranged found walked)
    rw [(ofNamespace_of_not_walked registry usage managed notWalked).1,
      (ofNamespace_of_not_walked registry.arranged usage managed notWalkedToo).1, checked]

end Resource
end SchemaCompiler
