import SchemaCompiler.Proofs.Schema.KeyedTree

/-!
# The invariant of edited objects

Every edit keeps the keys of an object distinct, every child under its own name and the groups
distinct lists of keys, also where it stops with an error and leaves a part of its work behind.
-/

namespace SchemaCompiler
namespace Schema

/-- The keys are distinct, each is the name of its child, and the groups are distinct lists of
keys. -/
structure KeyedObject.Consistent (object : KeyedObject) : Prop where
  distinct : object.keys.Nodup
  ownNames : ∀ entry ∈ object.entries, entry.2.name = entry.1
  groups : object.facets.groups.Nodup
  known : ∀ group ∈ object.facets.groups, ∀ member ∈ group, member ∈ object.keys

/-- Every object of the tree is consistent. -/
inductive KeyedNode.Sound : KeyedNode → Prop
  | scalar (declaration : Declaration) (facets : Scalar) : Sound (.scalar declaration facets)
  | array (declaration : Declaration) (facets : ArrayFacets) {element : KeyedNode} :
      Sound element → Sound (.array declaration facets element)
  | object (declaration : Declaration) {facets : ObjectFacets}
      {entries : List (String × KeyedNode)} :
      KeyedObject.Consistent ⟨entries, facets⟩ →
      (∀ entry ∈ entries, Sound entry.2) →
      Sound (.object declaration facets entries)

/-- The object is consistent and its children are sound. -/
structure KeyedObject.Sound (object : KeyedObject) : Prop where
  consistent : object.Consistent
  children : ∀ entry ∈ object.entries, entry.2.Sound

namespace KeyedObject

theorem Sound.toNode
    {object : KeyedObject}
    (sound : object.Sound)
    (declaration : Declaration) :
    (object.toNode declaration).Sound :=
  .object declaration sound.consistent sound.children

theorem sound_empty : empty.Sound := by
  refine ⟨⟨List.nodup_nil, ?_, List.nodup_nil, ?_⟩, ?_⟩ <;> exact List.forall_mem_nil _

/-- The child under a key stands in one of the entries. -/
theorem mem_entries_of_get?
    {object : KeyedObject}
    {key : String}
    {child : KeyedNode}
    (found : object.get? key = some child) :
    (key, child) ∈ object.entries := by
  obtain ⟨before, after, same, -⟩ := List.lookup_eq_some_iff.mp found
  rw [same]
  exact List.mem_append_right _ (.head _)

@[simp] theorem keys_put
    (object : KeyedObject)
    (key : String)
    (child : KeyedNode) :
    (object.put key child).keys = object.keys := by
  have inside : ∀ entries, (putEntry key child entries).map Prod.fst = entries.map Prod.fst := by
    intro entries
    induction entries with
    | nil => rfl
    | cons entry rest hypothesis =>
        rw [putEntry]
        split
        next same => simp [same]
        next => simp [hypothesis]
  exact inside object.entries

theorem mem_entries_put
    {object : KeyedObject}
    {key : String}
    {child : KeyedNode}
    {entry : String × KeyedNode}
    (member : entry ∈ (object.put key child).entries) :
    entry = (key, child) ∨ entry ∈ object.entries := by
  have inside : ∀ entries, entry ∈ putEntry key child entries →
      entry = (key, child) ∨ entry ∈ entries := by
    intro entries
    induction entries with
    | nil => exact .inr
    | cons first rest hypothesis =>
        rw [putEntry]
        split
        · rw [List.mem_cons, List.mem_cons]
          exact Or.imp_right .inr
        · rw [List.mem_cons, List.mem_cons]
          rintro (here | there)
          · exact .inr (.inl here)
          · exact (hypothesis there).imp_right .inr
  exact inside object.entries member

/-- A sound child of the same name can take the place of another. -/
theorem Sound.put
    {object : KeyedObject}
    {key : String}
    {child : KeyedNode}
    (sound : object.Sound)
    (named : child.name = key)
    (childSound : child.Sound) :
    (object.put key child).Sound := by
  obtain ⟨⟨distinct, ownNames, groups, known⟩, children⟩ := sound
  refine ⟨⟨?_, ?_, groups, ?_⟩, ?_⟩
  · rwa [keys_put]
  · intro entry member
    rcases mem_entries_put member with rfl | old
    · exact named
    · exact ownNames entry old
  · rwa [keys_put]
  · intro entry member
    rcases mem_entries_put member with rfl | old
    · exact childSound
    · exact children entry old

/-- A sound child can be added, and one whose name is taken changes nothing. -/
theorem Sound.insert
    {object : KeyedObject}
    {child : KeyedNode}
    (sound : object.Sound)
    (childSound : child.Sound)
    (path : FieldPath) :
    (object.insert path child).value.Sound := by
  unfold KeyedObject.insert
  split
  next => exact sound
  next fresh =>
    obtain ⟨⟨distinct, ownNames, groups, known⟩, children⟩ := sound
    have keys : (object.entries ++ [(child.name, child)]).map Prod.fst =
        object.keys ++ [child.name] := List.map_append
    refine ⟨⟨?_, ?_, groups, ?_⟩, ?_⟩
    · change (List.map _ _).Nodup
      rw [keys]
      exact distinct.append (List.nodup_singleton _) (List.disjoint_singleton.mpr fresh)
    · exact List.forall_mem_append.mpr ⟨ownNames, List.forall_mem_singleton.mpr rfl⟩
    · intro group present member inside
      change _ ∈ List.map _ _
      rw [keys]
      exact List.mem_append_left _ (known group present member inside)
    · exact List.forall_mem_append.mpr ⟨children, List.forall_mem_singleton.mpr childSound⟩

theorem Sound.insertAll
    {object : KeyedObject}
    {children : List KeyedNode}
    (sound : object.Sound)
    (each : ∀ child ∈ children, child.Sound)
    (path : FieldPath) :
    (object.insertAll path children).value.Sound := by
  induction children generalizing object with
  | nil => exact sound
  | cons child rest hypothesis =>
      rw [List.forall_mem_cons] at each
      exact Edited.andThen_induction (sound.insert each.1 path) fun next =>
        hypothesis next each.2

/-- A group that is added is made of keys and was not there. -/
theorem Sound.addGroup
    {object : KeyedObject}
    (sound : object.Sound)
    (path : FieldPath)
    (members : List String) :
    (object.addGroup path members).value.Sound := by
  unfold KeyedObject.addGroup
  split
  next => exact sound
  next familiar =>
    split
    next => exact sound
    next absent =>
      obtain ⟨⟨distinct, ownNames, groups, known⟩, children⟩ := sound
      refine ⟨⟨distinct, ownNames, ?_, ?_⟩, children⟩
      · have new : members ∉ object.facets.groups := mt List.contains_iff_mem.mpr absent
        exact groups.append (List.nodup_singleton _) (List.disjoint_singleton.mpr new)
      · refine List.forall_mem_append.mpr ⟨known, List.forall_mem_singleton.mpr ?_⟩
        intro member inside
        have key : member ∈ object.keys := by
          simpa using List.find?_eq_none.mp familiar member inside
        exact key

theorem Sound.addGroups
    {object : KeyedObject}
    (sound : object.Sound)
    (path : FieldPath)
    (groups : List (List String)) :
    (object.addGroups path groups).value.Sound := by
  induction groups generalizing object with
  | nil => exact sound
  | cons members rest hypothesis =>
      exact Edited.andThen_induction (sound.addGroup path members) fun next => hypothesis next

end KeyedObject

namespace KeyedNode

theorem Sound.content
    {declaration : Declaration}
    {facets : ObjectFacets}
    {entries : List (String × KeyedNode)}
    (sound : Sound (.object declaration facets entries)) :
    KeyedObject.Sound ⟨entries, facets⟩ := by
  cases sound with
  | object _ consistent children => exact ⟨consistent, children⟩

theorem Sound.withDeclaration
    {node : KeyedNode}
    (sound : node.Sound)
    (declaration : Declaration) :
    (node.withDeclaration declaration).Sound := by
  cases sound with
  | scalar => exact .scalar _ _
  | array _ _ element => exact .array _ _ element
  | object _ consistent children => exact .object _ consistent children

/-- A merge with an overlay of the same name leaves the name alone. -/
theorem name_mergeInto
    {base overlay : KeyedNode}
    (same : overlay.name = base.name)
    (path : FieldPath) :
    (base.mergeInto path overlay).value.name = base.name := by
  have merged : ∀ declaration other : Declaration, other.name = declaration.name →
      (declaration.merge other).name = declaration.name := by
    intro declaration other same
    simp only [Declaration.merge, overlayText, same, ite_self]
  cases overlay <;> cases base <;> try rfl
  case scalar.scalar overlayDeclaration overlay declaration facets =>
    rw [mergeInto]
    split
    next => exact merged _ _ same
    next => rfl
  case array.array => exact merged _ _ same
  case object.object => exact merged _ _ same

/-- The children of a sound overlay can be merged into a sound object. -/
theorem sound_mergeEntries
    {overlay : List (String × KeyedNode)}
    (ownNames : ∀ entry ∈ overlay, entry.2.name = entry.1)
    (each : ∀ entry ∈ overlay, entry.2.Sound)
    (merges : ∀ entry ∈ overlay, ∀ (path : FieldPath) (base : KeyedNode), base.Sound →
      (base.mergeInto path entry.2).value.Sound)
    {base : KeyedObject}
    (sound : base.Sound)
    (path : FieldPath) :
    (mergeEntries path base overlay).value.Sound := by
  induction overlay generalizing base with
  | nil => exact sound
  | cons entry rest hypothesis =>
      obtain ⟨key, child⟩ := entry
      rw [List.forall_mem_cons] at ownNames each merges
      replace hypothesis := fun {base : KeyedObject} (sound : base.Sound) =>
        hypothesis ownNames.2 each.2 merges.2 sound
      rw [mergeEntries]
      split
      next existing found =>
        have present := KeyedObject.mem_entries_of_get? found
        have named : existing.name = key := sound.consistent.ownNames _ present
        refine Edited.andThen_induction (sound.put ?_ ?_) hypothesis
        · rw [name_mergeInto (ownNames.1.trans named.symm), named]
        · exact merges.1 _ existing (sound.children _ present)
      next => exact Edited.andThen_induction (sound.insert each.1 path) hypothesis

/-- What a merge of sound trees leaves behind is sound, whether or not it stops. -/
theorem sound_mergeInto
    {base overlay : KeyedNode}
    (ofBase : base.Sound)
    (ofOverlay : overlay.Sound)
    (path : FieldPath) :
    (base.mergeInto path overlay).value.Sound := by
  induction overlay using inductOn generalizing path base with
  | scalar overlayDeclaration overlay =>
      cases base with
      | scalar =>
          rw [mergeInto]
          split
          next => exact .scalar _ _
          next => exact ofBase
      | array | object => exact ofBase
  | array overlayDeclaration overlay overlayElement hypothesis =>
      cases base with
      | array =>
          cases ofBase with
          | array _ _ ofElement =>
              cases ofOverlay with
              | array _ _ ofOverlayElement =>
                  exact .array _ _ (hypothesis ofElement ofOverlayElement path)
      | scalar | object => exact ofBase
  | object overlayDeclaration overlay overlayEntries hypothesis =>
      cases base with
      | object declaration facets entries =>
          obtain ⟨consistent, children⟩ := ofOverlay.content
          obtain ⟨⟨distinct, ownNames, groups, known⟩, baseChildren⟩ := ofBase.content
          have merges : ∀ entry ∈ overlayEntries, ∀ (path : FieldPath) (base : KeyedNode),
              base.Sound → (base.mergeInto path entry.2).value.Sound :=
            fun entry member path base sound =>
              hypothesis entry member sound (children entry member) path
          rw [mergeInto]
          refine KeyedObject.Sound.toNode (Edited.andThen_induction
            (sound_mergeEntries consistent.ownNames children merges ⟨⟨?_, ?_, ?_, ?_⟩, ?_⟩ path)
            fun sound => sound.addGroups path _) _
          · exact distinct
          · exact ownNames
          · exact groups
          · exact known
          · exact baseChildren
      | scalar | array => exact ofBase

end KeyedNode

/-- The child under a key keeps its name when its flags are set. -/
theorem KeyedObject.Sound.setFlags
    {object : KeyedObject}
    (sound : object.Sound)
    (key : String)
    (required readOnly replaceOnChange : Bool) :
    (object.modify key (KeyedNode.setFlags required readOnly replaceOnChange)).Sound := by
  unfold modify
  split
  next child found =>
    have present := mem_entries_of_get? found
    refine sound.put ?_ ((sound.children _ present).withDeclaration _)
    rw [KeyedNode.name_setFlags]
    exact sound.consistent.ownNames _ present
  next => exact sound

/-- A tree stays sound when its content does. -/
theorem KeyedNode.Sound.editObject
    {node : KeyedNode}
    {edit : KeyedObject → Edited KeyedObject}
    (sound : node.Sound)
    (each : ∀ object : KeyedObject, object.Sound → (edit object).value.Sound) :
    (node.editObject edit).value.Sound := by
  cases node with
  | object declaration facets entries => exact (each _ sound.content).toNode declaration
  | scalar | array => exact sound

/-- Commands keep trees sound. -/
theorem KeyedNode.Sound.perform
    {node : KeyedNode}
    {command : Command}
    (sound : node.Sound)
    (operands : ∀ operand ∈ command.operands, operand.Sound) :
    (command.perform node).value.Sound := by
  cases command with
  | insert path child =>
      exact sound.editObject fun _ content => content.insert (operands child (.head _)) path
  | addGroup path members => exact sound.editObject fun _ content => content.addGroup path members
  | setFlags key => exact sound.editObject fun _ content => content.setFlags key _ _ _
  | merge path overlay => exact sound_mergeInto sound (operands overlay (.head _)) path

end Schema
end SchemaCompiler
