import SchemaCompiler.Proofs.Schema.KeyedSoundness
import SchemaCompiler.Proofs.Schema.Merge

/-!
# Edits against operations on nodes

A node with every child under its own name is edited as the operations on nodes compute: an
edit that does not stop leaves their result, and one that stops has their error.
-/

namespace SchemaCompiler
namespace Schema

namespace Node

@[simp] theorem declaration_keyed (node : Node) : node.keyed.declaration = node.declaration := by
  cases node <;> rfl

@[simp] theorem name_keyed (node : Node) : node.keyed.name = node.name :=
  congrArg Declaration.name (declaration_keyed node)

/-- The node with its flags set. -/
def setFlags (required readOnly replaceOnChange : Bool) (node : Node) : Node :=
  node.withDeclaration
    { node.declaration with
      required := required, readOnly := readOnly, replaceOnChange := replaceOnChange }

@[simp] theorem name_setFlags
    (required readOnly replaceOnChange : Bool)
    (node : Node) :
    (node.setFlags required readOnly replaceOnChange).name = node.name := by
  cases node <;> rfl

theorem keyed_setFlags
    (required readOnly replaceOnChange : Bool)
    (node : Node) :
    node.keyed.setFlags required readOnly replaceOnChange =
      (node.setFlags required readOnly replaceOnChange).keyed := by
  cases node <;> rfl

theorem keyedAll_eq_map (children : List Node) :
    keyedAll children = children.map fun child => (child.name, child.keyed) := by
  induction children with
  | nil => rfl
  | cons child rest hypothesis => rw [keyedAll, hypothesis, List.map_cons]

@[simp] theorem keyedAll_append (first second : List Node) :
    keyedAll (first ++ second) = keyedAll first ++ keyedAll second := by
  simp only [keyedAll_eq_map, List.map_append]

@[simp] theorem map_fst_keyedAll (children : List Node) :
    (keyedAll children).map Prod.fst = children.map name := by
  simp [keyedAll_eq_map, Function.comp_def]

/-- The child under a key is the one of that name. -/
@[simp] theorem lookup_keyedAll
    (key : String)
    (children : List Node) :
    (keyedAll children).lookup key = (findChild? key children).map keyed := by
  induction children with
  | nil => rfl
  | cons child rest hypothesis =>
      rw [keyedAll, List.lookup_cons, findChild?_cons, hypothesis]
      by_cases same : child.name = key
      · simp [same]
      · simp [same, beq_false_of_ne (Ne.symm same)]

/-- A child of the same name takes the place of the first of that name. -/
theorem putEntry_keyedAll
    {key : String}
    {node : Node}
    (named : node.name = key)
    (children : List Node) :
    KeyedObject.putEntry key node.keyed (keyedAll children) =
      keyedAll (replaceFirst key node children) := by
  induction children with
  | nil => rfl
  | cons child rest hypothesis =>
      rw [keyedAll, KeyedObject.putEntry, replaceFirst, hypothesis]
      split <;> simp [keyedAll, named]

/-- A change of the children of a name changes nothing if there is none. -/
theorem map_change_of_not_mem
    {key : String}
    {children : List Node}
    (absent : key ∉ children.map name)
    (change : Node → Node) :
    (children.map fun child => if child.name = key then change child else child) = children := by
  refine List.map_congr_left (fun child member => if_neg ?_) |>.trans (List.map_id children)
  rintro rfl
  exact absent (List.mem_map_of_mem member)

/-- Distinctly named children have one child to change. -/
theorem replaceFirst_eq_map
    {key : String}
    {child : Node}
    {children : List Node}
    (distinct : (children.map name).Nodup)
    (found : findChild? key children = some child)
    (change : Node → Node) :
    replaceFirst key (change child) children =
      children.map fun other => if other.name = key then change other else other := by
  induction children with
  | nil => cases found
  | cons first rest hypothesis =>
      rw [List.map_cons, List.nodup_cons] at distinct
      rw [findChild?_cons] at found
      rw [replaceFirst, List.map_cons]
      split
      next same =>
        rw [if_pos same] at found
        cases found
        rw [map_change_of_not_mem (same ▸ distinct.1)]
      next different =>
        rw [if_neg different] at found
        rw [hypothesis distinct.2 found]

/-- Every child of a well-formed tree is kept under its own name. -/
theorem WellFormed.sound_keyed
    {node : Node}
    (formed : node.WellFormed) :
    node.keyed.Sound := by
  induction formed with
  | scalar declaration facets => exact .scalar declaration facets
  | array _ hypothesis => exact .array _ _ hypothesis
  | object distinct groups known _ hypothesis =>
      have keys := map_fst_keyedAll
      refine .object _ ⟨?_, ?_, groups, ?_⟩ ?_
      · rwa [KeyedObject.keys, keys]
      · simp [keyedAll_eq_map]
      · intro group present member inside
        rw [KeyedObject.keys, keys]
        exact (hasChild_iff ..).mp (known group present member inside)
      · simpa [keyedAll_eq_map] using hypothesis

end Node

namespace Object

@[simp] theorem keys_keyed (object : Object) : object.keyed.keys = object.names :=
  Node.map_fst_keyedAll object.children

/-- Adding a child. -/
theorem toExcept_insert
    (object : Object)
    (path : FieldPath)
    (child : Node) :
    (object.keyed.insert path child.keyed).toExcept = keyed <$> object.insert path child := by
  have taken : object.contains child.name = true ↔ child.name ∈ object.names :=
    Node.hasChild_iff ..
  rw [KeyedObject.insert, insert, Node.name_keyed, keys_keyed]
  by_cases present : child.name ∈ object.names
  · rw [if_pos present, if_pos (taken.mpr present)]
    rfl
  · rw [if_neg present, if_neg (taken.not.mpr present)]
    simp [keyed, Node.keyedAll, Edited.toExcept]

/-- Adding children one after another. -/
theorem toExcept_insertAll
    (object : Object)
    (path : FieldPath)
    (children : List Node) :
    (object.keyed.insertAll path (children.map Node.keyed)).toExcept =
      keyed <$> object.insertAll path children := by
  induction children generalizing object with
  | nil => rfl
  | cons child rest hypothesis =>
      rw [List.map_cons, KeyedObject.insertAll, insertAll, Edited.toExcept_andThen,
        toExcept_insert]
      cases object.insert path child with
      | ok next => exact hypothesis next
      | error => rfl

/-- Adding a group. -/
theorem toExcept_addGroup
    (object : Object)
    (path : FieldPath)
    (members : List String) :
    (object.keyed.addGroup path members).toExcept = keyed <$> object.addGroup path members := by
  have strange : object.keyed.strangeMember? members =
      Node.strangeMember? object.children members := by
    have unknown : (fun member => decide (member ∉ object.keyed.keys)) =
        fun member => !Node.hasChild member object.children := by
      funext member
      have known : Node.hasChild member object.children = true ↔ member ∈ object.names :=
        Node.hasChild_iff ..
      simp only [keys_keyed, ← known, Bool.not_eq_true, Bool.decide_eq_false]
    exact congrArg members.find? unknown
  unfold KeyedObject.addGroup addGroup
  rw [strange]
  cases Node.strangeMember? object.children members with
  | some member => rfl
  | none =>
      change Edited.toExcept (if object.groups.contains members then _ else _) = _
      cases object.groups.contains members <;> rfl

/-- Adding groups one after another. -/
theorem toExcept_addGroups
    (object : Object)
    (path : FieldPath)
    (groups : List (List String)) :
    (object.keyed.addGroups path groups).toExcept = keyed <$> object.addGroups path groups := by
  induction groups generalizing object with
  | nil => rfl
  | cons members rest hypothesis =>
      rw [KeyedObject.addGroups, addGroups, Edited.toExcept_andThen, toExcept_addGroup]
      cases object.addGroup path members with
      | ok next => exact hypothesis next
      | error => rfl

/-- Changing the child of a name, if names are distinct and the change keeps them. -/
theorem keyed_modify
    {object : Object}
    (distinct : object.names.Nodup)
    {change : Node → Node}
    {keyedChange : KeyedNode → KeyedNode}
    (same : ∀ child, keyedChange child.keyed = (change child).keyed)
    (named : ∀ child, (change child).name = child.name)
    (key : String) :
    object.keyed.modify key keyedChange = (object.modify key change).keyed := by
  have under : object.keyed.get? key = (Node.findChild? key object.children).map Node.keyed :=
    Node.lookup_keyedAll key object.children
  rw [KeyedObject.modify, under, modify]
  cases found : Node.findChild? key object.children with
  | none =>
      have absent := (Node.findChild?_eq_none_iff key object.children).mp found
      rw [Node.map_change_of_not_mem absent]
      rfl
  | some child =>
      have sameName := (named child).trans (Node.name_of_findChild? found)
      simp only [Option.map_some, same, KeyedObject.put]
      rw [← Node.replaceFirst_eq_map distinct found]
      exact congrArg (KeyedObject.mk · object.facets)
        (Node.putEntry_keyedAll sameName object.children)

end Object

namespace Node

/-- Merging the children of an overlay, if the merges of each of them agree. -/
theorem toExcept_mergeEntries
    {overlay : List Node}
    (merges : ∀ child ∈ overlay, ∀ (path : FieldPath) (base : Node),
      (base.keyed.mergeInto path child.keyed).toExcept = keyed <$> base.mergeAt path child)
    (path : FieldPath)
    (base : List Node)
    (facets : ObjectFacets) :
    (KeyedNode.mergeEntries path (Object.keyed ⟨base, facets⟩) (keyedAll overlay)).toExcept =
      (fun merged => Object.keyed ⟨merged, facets⟩) <$> mergeChildren path base overlay := by
  induction overlay generalizing base with
  | nil => rfl
  | cons child rest hypothesis =>
      rw [List.forall_mem_cons] at merges
      have under : (Object.keyed ⟨base, facets⟩).get? child.name =
          (findChild? child.name base).map keyed := lookup_keyedAll child.name base
      rw [keyedAll, KeyedNode.mergeEntries, mergeChildren, under]
      cases found : findChild? child.name base with
      | some existing =>
          simp only [Option.map_some, Edited.toExcept_andThen, Edited.toExcept_map,
            merges.1 (path.child child.name) existing]
          cases merged : existing.mergeAt (path.child child.name) child with
          | error => rfl
          | ok node =>
              have named := name_mergeAt_of_findChild? found merged
              have placed : (Object.keyed ⟨base, facets⟩).put child.name node.keyed =
                  Object.keyed ⟨replaceFirst child.name node base, facets⟩ :=
                congrArg (KeyedObject.mk · facets) (putEntry_keyedAll named base)
              change (KeyedNode.mergeEntries path ((Object.keyed ⟨base, facets⟩).put child.name
                node.keyed) (keyedAll rest)).toExcept = _
              rw [placed]
              exact hypothesis merges.2 _
      | none =>
          have fresh : Object.insert ⟨base, facets⟩ path child = .ok ⟨base ++ [child], facets⟩ := by
            have absent : ¬Object.contains ⟨base, facets⟩ child.name = true := fun present =>
              (findChild?_eq_none_iff _ base).mp found ((hasChild_iff ..).mp present)
            rw [Object.insert, if_neg absent]
          simp only [Option.map_none, Edited.toExcept_andThen, Object.toExcept_insert, fresh]
          exact hypothesis merges.2 _

/-- Merging trees. -/
theorem toExcept_mergeInto
    (path : FieldPath)
    (base overlay : Node) :
    (base.keyed.mergeInto path overlay.keyed).toExcept = keyed <$> base.mergeAt path overlay := by
  induction overlay using inductOn generalizing path base with
  | scalar overlayDeclaration overlay =>
      cases base with
      | scalar declaration facets =>
          rw [keyed, keyed, KeyedNode.mergeInto, mergeAt]
          cases facets.merge? overlay <;> rfl
      | array | object => rfl
  | array overlayDeclaration overlay overlayElement hypothesis =>
      cases base with
      | array declaration facets element =>
          rw [keyed, keyed, KeyedNode.mergeInto, mergeAt, Edited.toExcept_map, hypothesis]
          cases element.mergeAt path overlayElement <;> rfl
      | scalar | object => rfl
  | object overlayDeclaration overlay overlayChildren hypothesis =>
      cases base with
      | object declaration facets children =>
          rw [keyed, keyed, KeyedNode.mergeInto, mergeAt]
          have inner := toExcept_mergeEntries hypothesis path children
            { facets with className := overlayNonempty facets.className overlay.className }
          rw [Object.keyed] at inner
          simp only [Edited.toExcept_map, Edited.toExcept_andThen, inner]
          cases mergeChildren path children overlayChildren with
          | error => rfl
          | ok merged =>
              simp only [Outcome.map_ok, Outcome.ok_bind, Object.toExcept_addGroups]
              cases Object.addGroups _ path overlay.groups <;> rfl
      | scalar | array => rfl

end Node

end Schema
end SchemaCompiler
