import Mathlib.Data.List.Forall2
import SchemaCompiler.Proofs.Outcome
import SchemaCompiler.Proofs.Schema.Tree
import SchemaCompiler.Schema.Merge

/-!
# What a merge makes

A merge that succeeds is described part by part: the inversion lemmas open one
node, `mergeChildren_spec` tells the children of the result one by one, and
`addGroups_spec` tells its groups.
-/

namespace SchemaCompiler
namespace Schema

open SchemaCompiler.Outcome (bind_eq_ok_iff)

namespace Object

/-- The object with its groups replaced. -/
def withGroups (object : Object) (groups : List (List String)) : Object :=
  { object with facets := { object.facets with groups := groups } }

@[simp] theorem groups_withGroups
    (object : Object)
    (groups : List (List String)) :
    (object.withGroups groups).groups = groups := rfl

@[simp] theorem withGroups_withGroups
    (object : Object)
    (first second : List (List String)) :
    (object.withGroups first).withGroups second = object.withGroups second := rfl

/-- Adding a group that succeeds appends the group unless it is there. -/
theorem addGroup_spec
    {object grouped : Object}
    {path : FieldPath}
    {members : List String}
    (added : object.addGroup path members = .ok grouped) :
    (∀ member ∈ members, Node.hasChild member object.children) ∧
      grouped = object.withGroups
        (object.groups ++ [members].filter (· ∉ object.groups)) := by
  unfold addGroup at added
  split at added
  next => cases added
  next known =>
    refine ⟨by simpa [Node.strangeMember?] using known, ?_⟩
    split at added
    next present =>
      have present : members ∈ object.groups := by simpa using present
      cases added
      simp [present]
      rfl
    next absent =>
      have absent : members ∉ object.groups := by simpa using absent
      cases added
      simp [absent]
      rfl

/-- Adding distinct groups appends those that are not there, in their order. -/
theorem addGroups_spec
    {groups : List (List String)}
    (distinct : groups.Nodup)
    {object grouped : Object}
    {path : FieldPath}
    (added : object.addGroups path groups = .ok grouped) :
    (∀ group ∈ groups, ∀ member ∈ group, Node.hasChild member object.children) ∧
      grouped = object.withGroups
        (object.groups ++ groups.filter (· ∉ object.groups)) := by
  induction groups generalizing object with
  | nil =>
      cases added
      simp
      rfl
  | cons members rest hypothesis =>
      obtain ⟨fresh, restDistinct⟩ := List.nodup_cons.mp distinct
      obtain ⟨next, first, others⟩ := bind_eq_ok_iff.mp added
      obtain ⟨known, rfl⟩ := addGroup_spec first
      obtain ⟨restKnown, rfl⟩ := hypothesis restDistinct others
      refine ⟨?_, ?_⟩
      · intro group member
        rcases List.mem_cons.mp member with rfl | later
        · exact known
        · exact restKnown group later
      · have unaffected :
            rest.filter (· ∉ object.groups ++ [members].filter (· ∉ object.groups)) =
              rest.filter (· ∉ object.groups) := by
          apply List.filter_congr
          intro group later
          have different : group ≠ members := fun same => fresh (same ▸ later)
          by_cases present : members ∈ object.groups <;> simp [present, different]
        rw [withGroups_withGroups, groups_withGroups, unaffected, List.append_assoc,
          ← List.filter_append]
        rfl

end Object

namespace ObjectFacets

/-- The facets with what an overlay with distinct groups states. -/
def merge (base overlay : ObjectFacets) : ObjectFacets where
  groups := base.groups ++ overlay.groups.filter (· ∉ base.groups)
  className := overlayNonempty base.className overlay.className

end ObjectFacets

namespace Node

/-- A merge with a scalar overlay merges the facets of a scalar. -/
theorem mergeAt_scalar_spec
    {path : FieldPath}
    {base result : Node}
    {overlayDeclaration : Declaration}
    {overlay : Scalar}
    (merged : mergeAt path base (.scalar overlayDeclaration overlay) = .ok result) :
    ∃ declaration facets mergedFacets,
      base = .scalar declaration facets ∧
        facets.merge? overlay = some mergedFacets ∧
        result = .scalar (declaration.merge overlayDeclaration) mergedFacets := by
  cases base with
  | scalar declaration facets =>
      rw [mergeAt] at merged
      split at merged
      next mergedFacets both =>
        cases merged
        exact ⟨declaration, facets, mergedFacets, rfl, both, rfl⟩
      next => cases merged
  | array => simp [mergeAt] at merged
  | object => simp [mergeAt] at merged

/-- A merge with an array overlay merges the elements of two arrays. -/
theorem mergeAt_array_spec
    {path : FieldPath}
    {base result overlayElement : Node}
    {overlayDeclaration : Declaration}
    {overlay : ArrayFacets}
    (merged : mergeAt path base (.array overlayDeclaration overlay overlayElement) = .ok result) :
    ∃ declaration facets element mergedElement,
      base = .array declaration facets element ∧
        mergeAt path element overlayElement = .ok mergedElement ∧
        result = .array (declaration.merge overlayDeclaration) (facets.merge overlay)
          mergedElement := by
  cases base with
  | scalar => simp [mergeAt] at merged
  | array declaration facets element =>
      rw [mergeAt] at merged
      obtain ⟨mergedElement, elements, same⟩ := bind_eq_ok_iff.mp merged
      cases same
      exact ⟨declaration, facets, element, mergedElement, rfl, elements, rfl⟩
  | object => simp [mergeAt] at merged

/-- A merge with an object overlay merges the children of two objects and appends
the groups that are new. -/
theorem mergeAt_object_spec
    {path : FieldPath}
    {base result : Node}
    {overlayDeclaration : Declaration}
    {overlay : ObjectFacets}
    {overlayChildren : List Node}
    (distinct : overlay.groups.Nodup)
    (merged : mergeAt path base (.object overlayDeclaration overlay overlayChildren) =
      .ok result) :
    ∃ declaration facets children mergedChildren,
      base = .object declaration facets children ∧
        mergeChildren path children overlayChildren = .ok mergedChildren ∧
        (∀ group ∈ overlay.groups, ∀ member ∈ group, hasChild member mergedChildren) ∧
        result = .object (declaration.merge overlayDeclaration) (facets.merge overlay)
          mergedChildren := by
  cases base with
  | scalar => simp [mergeAt] at merged
  | array => simp [mergeAt] at merged
  | object declaration facets children =>
      rw [mergeAt] at merged
      obtain ⟨mergedChildren, inner, rest⟩ := bind_eq_ok_iff.mp merged
      obtain ⟨grouped, added, same⟩ := bind_eq_ok_iff.mp rest
      obtain ⟨known, rfl⟩ := Object.addGroups_spec distinct added
      cases same
      exact ⟨declaration, facets, children, mergedChildren, rfl, inner, known, rfl⟩

/-- A merge merges the declarations. -/
theorem declaration_mergeAt
    {path : FieldPath}
    {base overlay result : Node}
    (merged : mergeAt path base overlay = .ok result) :
    result.declaration = base.declaration.merge overlay.declaration := by
  cases overlay with
  | scalar =>
      obtain ⟨declaration, facets, mergedFacets, rfl, -, rfl⟩ := mergeAt_scalar_spec merged
      rfl
  | array =>
      obtain ⟨declaration, facets, element, mergedElement, rfl, -, rfl⟩ :=
        mergeAt_array_spec merged
      rfl
  | object =>
      cases base with
      | scalar => simp [mergeAt] at merged
      | array => simp [mergeAt] at merged
      | object =>
          rw [mergeAt] at merged
          obtain ⟨children, -, rest⟩ := bind_eq_ok_iff.mp merged
          obtain ⟨grouped, -, same⟩ := bind_eq_ok_iff.mp rest
          cases same
          rfl

/-- A merge with an overlay of the same name keeps the name. -/
theorem name_mergeAt
    {path : FieldPath}
    {base overlay result : Node}
    (same : base.name = overlay.name)
    (merged : mergeAt path base overlay = .ok result) :
    result.name = base.name := by
  have names : result.name = overlayText base.name overlay.name :=
    congrArg Declaration.name (declaration_mergeAt merged)
  rw [names, same, overlayText, ite_self]

/-- So it keeps the name when the base was found by it. -/
theorem name_mergeAt_of_findChild?
    {path : FieldPath}
    {children : List Node}
    {existing stated node : Node}
    (found : findChild? stated.name children = some existing)
    (merged : mergeAt path existing stated = .ok node) :
    node.name = stated.name :=
  (name_mergeAt (name_of_findChild? found) merged).trans (name_of_findChild? found)

/-- A node replaced by one of its name leaves the names as they are. -/
theorem map_name_replaceFirst
    {name : String}
    {node : Node}
    (same : node.name = name)
    (children : List Node) :
    (replaceFirst name node children).map Node.name = children.map Node.name := by
  induction children with
  | nil => rfl
  | cons first rest hypothesis =>
      rw [replaceFirst]
      split
      next found => simp [same, found]
      next => simp [hypothesis]

/-- What becomes of a child under the children of an overlay: it stays, or the
overlay of its name is merged into it. -/
def MergedChild (path : FieldPath) (overlay : List Node) (child kept : Node) : Prop :=
  match findChild? child.name overlay with
  | none => kept = child
  | some stated => mergeAt (path.child child.name) child stated = .ok kept

/-- A child keeps its name. -/
theorem MergedChild.name_eq
    {path : FieldPath}
    {overlay : List Node}
    {child kept : Node}
    (merged : MergedChild path overlay child kept) :
    kept.name = child.name := by
  unfold MergedChild at merged
  split at merged
  next => rw [merged]
  next stated found => exact name_mergeAt (name_of_findChild? found).symm merged

/-- Merged children keep their names. -/
theorem map_name_eq_of_mergedChild
    {path : FieldPath}
    {overlay base kept : List Node}
    (pairs : List.Forall₂ (MergedChild path overlay) base kept) :
    kept.map name = base.map name := by
  induction pairs with
  | nil => rfl
  | cons pair _ hypothesis => simp [pair.name_eq, hypothesis]

/-- An overlay of another name leaves a child alone. -/
theorem mergedChild_cons_of_ne
    {path : FieldPath}
    {stated child kept : Node}
    {rest : List Node}
    (different : stated.name ≠ child.name) :
    MergedChild path (stated :: rest) child kept ↔ MergedChild path rest child kept := by
  rw [MergedChild, MergedChild, findChild?_cons, if_neg different]

/-- So does it with children that all have other names. -/
theorem forall₂_mergedChild_cons
    {path : FieldPath}
    {stated : Node}
    {rest children kept : List Node}
    (apart : ∀ child ∈ children, stated.name ≠ child.name)
    (pairs : List.Forall₂ (MergedChild path rest) children kept) :
    List.Forall₂ (MergedChild path (stated :: rest)) children kept := by
  have both := (List.forall₂_and_left _ _).mpr ⟨apart, pairs⟩
  exact both.imp fun child kept pair => (mergedChild_cons_of_ne pair.1).mpr pair.2

/-- Merging the first overlay child and then the others treats every child as it
should. -/
theorem mergedChild_cons_of_replaceFirst
    {path : FieldPath}
    {stated node existing : Node}
    {rest : List Node}
    (fresh : stated.name ∉ rest.map Node.name)
    (merged : mergeAt (path.child stated.name) existing stated = .ok node)
    {children kept : List Node}
    (distinct : (children.map name).Nodup)
    (found : findChild? stated.name children = some existing)
    (later : List.Forall₂ (MergedChild path rest) (replaceFirst stated.name node children) kept) :
    List.Forall₂ (MergedChild path (stated :: rest)) children kept := by
  have sameName := name_mergeAt_of_findChild? found merged
  induction children generalizing kept with
  | nil => simp [findChild?] at found
  | cons first tail hypothesis =>
      rw [List.map_cons, List.nodup_cons] at distinct
      rw [findChild?_cons] at found
      rw [replaceFirst] at later
      split at found
      next same =>
        cases found
        rw [if_pos same] at later
        obtain ⟨last, lasts, head, others, rfl⟩ := List.forall₂_cons_left_iff.mp later
        have unmet : findChild? node.name rest = none := by
          rwa [sameName, findChild?_eq_none_iff]
        rw [MergedChild, unmet] at head
        have apart : ∀ child ∈ tail, stated.name ≠ child.name := by
          intro child member equal
          exact distinct.1 (same.trans equal ▸ List.mem_map_of_mem member)
        refine .cons ?_ (forall₂_mergedChild_cons apart others)
        rw [MergedChild, findChild?_cons, if_pos same.symm, head, same]
        exact merged
      next different =>
        rw [if_neg different] at later
        obtain ⟨last, lasts, head, others, rfl⟩ := List.forall₂_cons_left_iff.mp later
        have apart : stated.name ≠ first.name := fun same => different same.symm
        exact .cons ((mergedChild_cons_of_ne apart).mpr head)
          (hypothesis distinct.2 found others)

/-- Whether there is a child of a name depends on the names alone. -/
theorem hasChild_congr
    {left right : List Node}
    (same : left.map Node.name = right.map Node.name)
    (name : String) :
    hasChild name left = hasChild name right := by
  rw [Bool.eq_iff_iff, hasChild_iff, hasChild_iff, same]

/-- Partners of a list with one more entry at the end. -/
theorem forall₂_concat_left
    {relation : α → β → Prop}
    {left : List α}
    {last : α}
    {right : List β}
    (pairs : List.Forall₂ relation (left ++ [last]) right) :
    ∃ before after, List.Forall₂ relation left before ∧ relation last after ∧
      right = before ++ [after] := by
  induction left generalizing right with
  | nil =>
      obtain ⟨after, none, pair, nothing, rfl⟩ := List.forall₂_cons_left_iff.mp pairs
      cases nothing
      exact ⟨[], after, .nil, pair, rfl⟩
  | cons first rest hypothesis =>
      obtain ⟨partner, others, pair, later, rfl⟩ := List.forall₂_cons_left_iff.mp pairs
      obtain ⟨before, after, inFront, atEnd, rfl⟩ := hypothesis later
      exact ⟨partner :: before, after, .cons pair inFront, atEnd, rfl⟩

/-- The children of a merge that succeeds: those of the base, in their order and each
with the overlay of its name merged into it, and then the new ones of the overlay. -/
theorem mergeChildren_spec
    {path : FieldPath}
    {overlay : List Node}
    (overlayDistinct : (overlay.map name).Nodup)
    {base result : List Node}
    (baseDistinct : (base.map name).Nodup)
    (merged : mergeChildren path base overlay = .ok result) :
    ∃ kept, List.Forall₂ (MergedChild path overlay) base kept ∧
      result = kept ++ overlay.filter fun child => !hasChild child.name base := by
  induction overlay generalizing base with
  | nil =>
      cases merged
      refine ⟨result, List.forall₂_same.mpr fun child _ => ?_, by simp⟩
      simp [MergedChild, findChild?]
  | cons stated rest hypothesis =>
      obtain ⟨fresh, restDistinct⟩ := List.nodup_cons.mp overlayDistinct
      rw [mergeChildren] at merged
      split at merged
      next existing found =>
        obtain ⟨node, first, others⟩ := bind_eq_ok_iff.mp merged
        have sameNames := map_name_replaceFirst (name_mergeAt_of_findChild? found first) base
        obtain ⟨kept, pairs, rfl⟩ := hypothesis restDistinct (sameNames ▸ baseDistinct) others
        refine ⟨kept, mergedChild_cons_of_replaceFirst fresh first baseDistinct found pairs, ?_⟩
        have known : hasChild stated.name base = true := by
          rw [hasChild_iff, ← name_of_findChild? found]
          exact List.mem_map_of_mem (mem_of_findChild? found)
        simp only [hasChild_congr sameNames, List.filter_cons, known, Bool.not_true,
          Bool.false_eq_true, if_false]
      next absent =>
        have new : stated.name ∉ base.map name := (findChild?_eq_none_iff _ _).mp absent
        have appendedDistinct : ((base ++ [stated]).map name).Nodup := by
          rw [List.map_append, List.nodup_append]
          refine ⟨baseDistinct, by simp, ?_⟩
          intro old member last lastMember same
          rw [List.map_singleton, List.mem_singleton] at lastMember
          exact new (lastMember ▸ same ▸ member)
        obtain ⟨kept, pairs, rfl⟩ := hypothesis restDistinct appendedDistinct merged
        obtain ⟨before, after, basePairs, statedPair, rfl⟩ := forall₂_concat_left pairs
        have unmet : findChild? stated.name rest = none := by
          rwa [findChild?_eq_none_iff]
        rw [MergedChild, unmet] at statedPair
        have apart : ∀ child ∈ base, stated.name ≠ child.name := by
          intro child member same
          exact new (same ▸ List.mem_map_of_mem member)
        refine ⟨before, forall₂_mergedChild_cons apart basePairs, ?_⟩
        have unknown : hasChild stated.name base = false := by
          rwa [← Bool.not_eq_true, hasChild_iff]
        have others : (rest.filter fun child => !hasChild child.name (base ++ [stated])) =
            rest.filter fun child => !hasChild child.name base := by
          apply List.filter_congr
          intro child member
          have different : stated.name ≠ child.name := fun same =>
            fresh (same ▸ List.mem_map_of_mem member)
          simp [hasChild, different]
        rw [others, statedPair, List.filter_cons, unknown, List.append_assoc]
        rfl

end Node
end Schema
end SchemaCompiler
