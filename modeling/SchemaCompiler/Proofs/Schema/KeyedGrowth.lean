import SchemaCompiler.Proofs.Schema.KeyedSoundness

/-!
# The order of edited objects

Edits add children at the end and never remove or move one: at every place of a tree, the keys
before an edit are the first keys after it.
-/

namespace SchemaCompiler
namespace Schema

namespace KeyedNode

/-- The node that steps lead to. -/
def at? : List Step → KeyedNode → Option KeyedNode
  | [], node => some node
  | .element :: rest, .array _ _ element => at? rest element
  | .child key :: rest, .object _ _ entries => (entries.lookup key).bind (at? rest)
  | _ :: _, _ => none

/-- Keys of an object in the order of their insertion; other nodes have none. -/
def keys : KeyedNode → List String
  | .object _ _ entries => entries.map Prod.fst
  | _ => []

/-- Every place of the first tree is one of the second, where its keys come first. -/
def Grows (before after : KeyedNode) : Prop :=
  ∀ steps node, before.at? steps = some node →
    ∃ grown, after.at? steps = some grown ∧ node.keys <+: grown.keys

theorem Grows.refl (node : KeyedNode) : node.Grows node :=
  fun _ place found => ⟨place, found, List.prefix_rfl⟩

theorem Grows.trans
    {first second third : KeyedNode}
    (before : first.Grows second)
    (after : second.Grows third) :
    first.Grows third := by
  intro steps node found
  obtain ⟨middle, present, fewer⟩ := before steps node found
  obtain ⟨last, there, more⟩ := after steps middle present
  exact ⟨last, there, fewer.trans more⟩

/-- Scalars have no places but themselves. -/
theorem grows_scalar
    (declaration other : Declaration)
    (facets otherFacets : Scalar) :
    Grows (.scalar declaration facets) (.scalar other otherFacets) := by
  intro steps node found
  cases steps with
  | nil =>
      cases found
      exact ⟨_, rfl, List.prefix_rfl⟩
  | cons step rest => cases step <;> cases found

/-- Arrays grow with their elements. -/
theorem Grows.array
    {element grown : KeyedNode}
    (inner : element.Grows grown)
    (declaration other : Declaration)
    (facets otherFacets : ArrayFacets) :
    Grows (.array declaration facets element) (.array other otherFacets grown) := by
  intro steps node found
  cases steps with
  | nil =>
      cases found
      exact ⟨_, rfl, List.prefix_rfl⟩
  | cons step rest =>
      cases step with
      | child => cases found
      | element => exact inner rest node found

end KeyedNode

/-- The keys of the first object come first in the second, and their children grow. -/
structure KeyedObject.Grows (before after : KeyedObject) : Prop where
  keys : before.keys <+: after.keys
  children : ∀ key child, before.get? key = some child →
    ∃ grown, after.get? key = some grown ∧ child.Grows grown

namespace KeyedObject

theorem Grows.refl (object : KeyedObject) : object.Grows object :=
  ⟨List.prefix_rfl, fun _ child found => ⟨child, found, .refl child⟩⟩

theorem Grows.trans
    {first second third : KeyedObject}
    (before : first.Grows second)
    (after : second.Grows third) :
    first.Grows third := by
  refine ⟨before.keys.trans after.keys, ?_⟩
  intro key child found
  obtain ⟨middle, present, fewer⟩ := before.children key child found
  obtain ⟨last, there, more⟩ := after.children key middle present
  exact ⟨last, there, fewer.trans more⟩

/-- Objects as nodes grow with their content. -/
theorem Grows.toNode
    {before after : KeyedObject}
    (content : before.Grows after)
    (declaration other : Declaration) :
    (before.toNode declaration).Grows (after.toNode other) := by
  intro steps node found
  cases steps with
  | nil =>
      cases found
      exact ⟨_, rfl, content.keys⟩
  | cons step rest =>
      cases step with
      | element => cases found
      | child key =>
          obtain ⟨child, present, inside⟩ := Option.bind_eq_some_iff.mp found
          obtain ⟨grown, there, more⟩ := content.children key child present
          obtain ⟨last, reached, keys⟩ := more rest node inside
          exact ⟨last, Option.bind_eq_some_iff.mpr ⟨grown, there, reached⟩, keys⟩

/-- Only the child under the key is replaced. -/
theorem get?_put
    (object : KeyedObject)
    (key other : String)
    (child : KeyedNode) :
    (object.put key child).get? other =
      if other = key then (object.get? key).map fun _ => child else object.get? other := by
  have inside : ∀ entries, (putEntry key child entries).lookup other =
      if other = key then (entries.lookup key).map fun _ => child else entries.lookup other := by
    intro entries
    induction entries with
    | nil => simp [putEntry]
    | cons entry rest hypothesis =>
        obtain ⟨first, node⟩ := entry
        rw [putEntry]
        by_cases same : first = key
        · subst same
          by_cases there : other = first
          · simp [there]
          · simp [there, List.lookup_cons, beq_false_of_ne there]
        · rw [if_neg same, List.lookup_cons, hypothesis, List.lookup_cons, List.lookup_cons]
          by_cases there : other = key
          · subst there
            simp [beq_false_of_ne (Ne.symm same)]
          · simp [there]
  exact inside object.entries

/-- An object grows with the child under a key. -/
theorem grows_put
    {object : KeyedObject}
    {key : String}
    {child grown : KeyedNode}
    (found : object.get? key = some child)
    (inner : child.Grows grown) :
    object.Grows (object.put key grown) := by
  constructor
  · exact ((keys_put object key grown).symm ▸ List.prefix_rfl)
  · intro other old present
    rw [get?_put]
    split
    next same =>
      subst same
      rw [found] at present
      cases present
      exact ⟨grown, by rw [found]; rfl, inner⟩
    next => exact ⟨old, present, .refl old⟩

theorem grows_insert
    (object : KeyedObject)
    (path : FieldPath)
    (child : KeyedNode) :
    object.Grows (object.insert path child).value := by
  unfold insert
  split
  next => exact .refl object
  next =>
    constructor
    · change _ <+: List.map _ _
      rw [List.map_append]
      exact List.prefix_append ..
    · intro key old found
      refine ⟨old, ?_, .refl old⟩
      rw [get?] at found
      rw [get?, List.lookup_append, found]
      rfl

theorem grows_addGroup
    (object : KeyedObject)
    (path : FieldPath)
    (members : List String) :
    object.Grows (object.addGroup path members).value := by
  unfold addGroup
  split
  next => exact .refl object
  next =>
    split
    next => exact .refl object
    next => exact ⟨List.prefix_rfl, fun _ child found => ⟨child, found, .refl child⟩⟩

theorem grows_addGroups
    (object : KeyedObject)
    (path : FieldPath)
    (groups : List (List String)) :
    object.Grows (object.addGroups path groups).value := by
  induction groups generalizing object with
  | nil => exact .refl object
  | cons members rest hypothesis =>
      exact Edited.andThen_induction (grows_addGroup object path members) fun next =>
        next.trans (hypothesis _)

theorem grows_setFlags
    (object : KeyedObject)
    (key : String)
    (required readOnly replaceOnChange : Bool) :
    object.Grows (object.modify key (KeyedNode.setFlags required readOnly replaceOnChange)) := by
  unfold modify
  split
  next child found =>
    refine grows_put found ?_
    cases child with
    | scalar declaration facets => exact KeyedNode.grows_scalar declaration _ facets _
    | array declaration facets element =>
        exact (KeyedNode.Grows.refl element).array declaration _ facets _
    | object declaration facets entries =>
        exact (Grows.refl ⟨entries, facets⟩).toNode declaration _
  next => exact .refl object

end KeyedObject

namespace KeyedNode

/-- An object grows with the children of an overlay. -/
theorem grows_mergeEntries
    {overlay : List (String × KeyedNode)}
    (merges : ∀ entry ∈ overlay, ∀ (path : FieldPath) (base : KeyedNode),
      base.Grows (base.mergeInto path entry.2).value)
    (path : FieldPath)
    (base : KeyedObject) :
    base.Grows (mergeEntries path base overlay).value := by
  induction overlay generalizing base with
  | nil => exact .refl base
  | cons entry rest hypothesis =>
      obtain ⟨key, child⟩ := entry
      rw [List.forall_mem_cons] at merges
      rw [mergeEntries]
      split
      next existing found =>
        exact Edited.andThen_induction (KeyedObject.grows_put found (merges.1 _ existing))
          fun next => next.trans (hypothesis merges.2 _)
      next =>
        exact Edited.andThen_induction (KeyedObject.grows_insert base path child)
          fun next => next.trans (hypothesis merges.2 _)

/-- A tree grows with an overlay, whether or not the merge stops. -/
theorem grows_mergeInto
    (path : FieldPath)
    (base overlay : KeyedNode) :
    base.Grows (base.mergeInto path overlay).value := by
  induction overlay using inductOn generalizing path base with
  | scalar overlayDeclaration overlay =>
      cases base with
      | scalar =>
          rw [mergeInto]
          split
          next => exact grows_scalar _ _ _ _
          next => exact .refl _
      | array | object => exact .refl _
  | array overlayDeclaration overlay overlayElement hypothesis =>
      cases base with
      | array _ _ element => exact (hypothesis path element).array _ _ _ _
      | scalar | object => exact .refl _
  | object overlayDeclaration overlay overlayEntries hypothesis =>
      cases base with
      | object declaration facets entries =>
          rw [mergeInto]
          have content : KeyedObject.Grows ⟨entries, facets⟩ ⟨entries, { facets with
              className := overlayNonempty facets.className overlay.className }⟩ :=
            ⟨List.prefix_rfl, fun _ child found => ⟨child, found, .refl child⟩⟩
          refine KeyedObject.Grows.toNode (Edited.andThen_induction
            (content.trans (grows_mergeEntries hypothesis path _)) fun next => next.trans
              (KeyedObject.grows_addGroups _ path _)) _ _
      | scalar | array => exact .refl _

/-- Trees grow with edits of their content. -/
theorem grows_editObject
    {edit : KeyedObject → Edited KeyedObject}
    (each : ∀ object : KeyedObject, object.Grows (edit object).value)
    (node : KeyedNode) :
    node.Grows (editObject edit node).value := by
  cases node with
  | object declaration facets entries => exact (each ⟨entries, facets⟩).toNode declaration _
  | scalar | array => exact .refl _

/-- Trees grow with every command. -/
theorem grows_perform
    (command : Command)
    (node : KeyedNode) :
    node.Grows (command.perform node).value := by
  cases command with
  | insert path child => exact grows_editObject (KeyedObject.grows_insert · path child) node
  | addGroup path members => exact grows_editObject (KeyedObject.grows_addGroup · path members) node
  | setFlags key => exact grows_editObject (KeyedObject.grows_setFlags · key _ _ _) node
  | merge path overlay => exact grows_mergeInto path node overlay

/-- And so with every run of commands. -/
theorem grows_run
    (commands : List Command)
    (node : KeyedNode) :
    node.Grows (Command.run commands node) := by
  induction commands generalizing node with
  | nil => exact .refl node
  | cons command rest hypothesis => exact (grows_perform command node).trans (hypothesis _)

end KeyedNode

end Schema
end SchemaCompiler
