import SchemaCompiler.Proofs.Schema.Combination
import SchemaCompiler.Reading.Document

/-!
# Sound documents

A node is sound if it is well-formed and no object has an empty class name; a function
moreover has a method that can be read again. Merges keep sound documents: what an
override adds to an object are children with new names and groups of present children.
-/

namespace SchemaCompiler
namespace Schema

open SchemaCompiler.Order.Overlay
open SchemaCompiler.Outcome (toOption_eq_some_iff)

namespace Node

/-- No object of the tree has an empty class name. -/
inductive ClassesNamed : Node → Prop
  | scalar (declaration : Declaration) (facets : Scalar) :
      ClassesNamed (.scalar declaration facets)
  | array {declaration : Declaration} {facets : ArrayFacets} {element : Node} :
      ClassesNamed element → ClassesNamed (.array declaration facets element)
  | object {declaration : Declaration} {facets : ObjectFacets} {children : List Node} :
      facets.className ≠ some "" →
      (∀ child ∈ children, ClassesNamed child) →
      ClassesNamed (.object declaration facets children)

/-- A tree that reading can return. -/
structure Sound (node : Node) : Prop where
  wellFormed : node.WellFormed
  classesNamed : node.ClassesNamed

theorem sound_scalar (declaration : Declaration) (facets : Scalar) :
    Sound (.scalar declaration facets) :=
  ⟨.scalar declaration facets, .scalar declaration facets⟩

theorem sound_array_iff
    {declaration : Declaration}
    {facets : ArrayFacets}
    {element : Node} :
    Sound (.array declaration facets element) ↔ element.Sound := by
  constructor
  · rintro ⟨formed, named⟩
    cases formed with
    | array elementFormed =>
        cases named with
        | array elementNamed => exact ⟨elementFormed, elementNamed⟩
  · rintro ⟨formed, named⟩
    exact ⟨.array formed, .array named⟩

/-- What an object needs to be sound beside sound children. -/
structure SoundParts (facets : ObjectFacets) (children : List Node) : Prop where
  distinct : (children.map name).Nodup
  groups : facets.groups.Nodup
  known : ∀ group ∈ facets.groups, ∀ member ∈ group, hasChild member children
  className : facets.className ≠ some ""

theorem sound_object_iff
    {declaration : Declaration}
    {facets : ObjectFacets}
    {children : List Node} :
    Sound (.object declaration facets children) ↔
      SoundParts facets children ∧ ∀ child ∈ children, child.Sound := by
  constructor
  · rintro ⟨formed, named⟩
    cases formed with
    | object distinct groups known formed =>
        cases named with
        | object className named =>
            exact ⟨⟨distinct, groups, known, className⟩, fun child member =>
              ⟨formed child member, named child member⟩⟩
  · rintro ⟨⟨distinct, groups, known, className⟩, children⟩
    exact ⟨.object distinct groups known fun child member => (children child member).wellFormed,
      .object className fun child member => (children child member).classesNamed⟩

/-- The children of a merge have the names of the base and then the new ones of the
overlay. -/
theorem map_name_mergeChildren
    {path : FieldPath}
    {overlay base result : List Node}
    (overlayDistinct : (overlay.map name).Nodup)
    (baseDistinct : (base.map name).Nodup)
    (merged : mergeChildren path base overlay = .ok result) :
    result.map name =
      base.map name ++ (overlay.filter fun child => !hasChild child.name base).map name := by
  obtain ⟨kept, pairs, rfl⟩ := mergeChildren_spec overlayDistinct baseDistinct merged
  rw [List.map_append, map_name_eq_of_mergedChild pairs]

/-- A merge gives a well-formed class name to a well-formed base. -/
theorem overlayNonempty_ne_empty
    {base : Option String}
    (overlay : Option String)
    (given : base ≠ some "") :
    overlayNonempty base overlay ≠ some "" := by
  intro same
  rcases Option.or_eq_some_iff.mp same with stated | ⟨-, kept⟩
  · simp [Option.filter_eq_some_iff] at stated
  · exact given kept

/-- The children of a merge have what an object needs if those of the base and of the
overlay do. -/
theorem SoundParts.merge
    {path : FieldPath}
    {facets overlay : ObjectFacets}
    {base stated merged : List Node}
    (ofBase : SoundParts facets base)
    (ofOverlay : SoundParts overlay stated)
    (inner : mergeChildren path base stated = .ok merged)
    (known : ∀ group ∈ overlay.groups, ∀ member ∈ group, hasChild member merged) :
    SoundParts (facets.merge overlay) merged := by
  have names := map_name_mergeChildren ofOverlay.distinct ofBase.distinct inner
  refine ⟨?_, ?_, ?_, overlayNonempty_ne_empty overlay.className ofBase.className⟩
  · rw [names, List.nodup_append]
    refine ⟨ofBase.distinct, (List.filter_sublist.map name).nodup ofOverlay.distinct, ?_⟩
    rintro old present new added rfl
    obtain ⟨child, member, same⟩ := List.mem_map.mp added
    have fresh : hasChild child.name base = false := by simpa using (List.mem_filter.mp member).2
    have found : hasChild child.name base = true := by rwa [hasChild_iff, same]
    simp [fresh] at found
  · rw [ObjectFacets.merge, List.nodup_append]
    refine ⟨ofBase.groups, List.filter_sublist.nodup ofOverlay.groups, ?_⟩
    rintro old present new added rfl
    simp [present] at added
  · intro group present member inside
    rcases List.mem_append.mp present with old | added
    · rw [hasChild_iff, names]
      exact List.mem_append_left _ ((hasChild_iff _ _).mp (ofBase.known group old member inside))
    · exact known group (List.mem_of_mem_filter added) member inside

/-- Sound trees combine into a sound one. -/
theorem sound_combine
    {base overlay result : Node}
    (ofBase : base.Sound)
    (ofOverlay : overlay.Sound)
    (combined : combine base overlay = some result) :
    result.Sound := by
  induction overlay using inductOn generalizing base result with
  | scalar =>
      obtain ⟨declaration, facets, mergedFacets, rfl, -, rfl⟩ :=
        mergeAt_scalar_spec (toOption_eq_some_iff.mp combined)
      exact sound_scalar _ _
  | array _ _ element hypothesis =>
      obtain ⟨_, _, _, _, rfl, elements, rfl⟩ :=
        mergeAt_array_spec (toOption_eq_some_iff.mp combined)
      rw [sound_array_iff] at ofBase ofOverlay ⊢
      exact hypothesis ofBase ofOverlay (toOption_eq_some_iff.mpr elements)
  | object _ _ children hypothesis =>
      rw [sound_object_iff] at ofOverlay
      obtain ⟨_, _, _, _, rfl, inner, known, rfl⟩ :=
        mergeAt_object_spec ofOverlay.1.groups (toOption_eq_some_iff.mp combined)
      rw [sound_object_iff] at ofBase ⊢
      refine ⟨ofBase.1.merge ofOverlay.1 inner known, ?_⟩
      rw [← toOption_eq_some_iff, toOption_mergeChildren] at inner
      refine forall_mergeList ofBase.2 ofOverlay.2 ?_ inner
      intro existing merged stated member sound
      exact hypothesis stated member sound (ofOverlay.2 stated member)

/-- A sound tree with another declaration is sound. -/
theorem Sound.withDeclaration
    {node : Node}
    (sound : node.Sound)
    (declaration : Declaration) :
    (node.withDeclaration declaration).Sound := by
  cases node with
  | scalar => exact sound_scalar _ _
  | array => exact sound_array_iff.mpr (sound_array_iff.mp sound)
  | object => exact sound_object_iff.mpr (sound_object_iff.mp sound)

end Node

/-- A method as documents keep it: signs of a method, at least one of them, in upper case. -/
structure IsMethod (method : String) : Prop where
  nonempty : method ≠ ""
  signs : ∀ character ∈ method.toList, Reading.isMethodSign character
  upper : ∀ character ∈ method.toList, character.toUpper = character

namespace Function

/-- A function that reading can return. -/
structure Sound (function : Function) : Prop where
  nodes : ∀ node ∈ function.nodes, node.Sound
  method : ∀ method ∈ function.method, IsMethod method

/-- Nodes of a function by the part they stand in. -/
theorem forall_mem_nodes_iff
    {property : Node → Prop}
    {function : Function} :
    (∀ node ∈ function.nodes, property node) ↔
      (∀ node ∈ function.pathParameters, property node) ∧
        (∀ node ∈ function.queryParameters, property node) ∧
        (∀ node ∈ function.body, property node) ∧ ∀ node ∈ function.output, property node := by
  simp [nodes, or_imp, forall_and]

/-- Sound functions combine into a sound one. -/
theorem sound_combine
    {base overlay result : Function}
    (ofBase : base.Sound)
    (ofOverlay : overlay.Sound)
    (combined : combine base overlay = some result) :
    result.Sound := by
  have parts := combine_eq_some_iff.mp combined
  obtain ⟨basePath, baseQuery, baseBody, baseOutput⟩ := forall_mem_nodes_iff.mp ofBase.nodes
  obtain ⟨overlayPath, overlayQuery, overlayBody, overlayOutput⟩ :=
    forall_mem_nodes_iff.mp ofOverlay.nodes
  have listed : ∀ {base overlay result : List Node}, (∀ node ∈ base, node.Sound) →
      (∀ node ∈ overlay, node.Sound) →
      mergeList Node.name Node.combine base overlay = some result → ∀ node ∈ result, node.Sound :=
    fun base overlay => forall_mergeList base overlay fun _ _ stated member sound =>
      Node.sound_combine sound (overlay stated member)
  have given : ∀ {base overlay result : Option Node}, (∀ node ∈ base, node.Sound) →
      (∀ node ∈ overlay, node.Sound) →
      mergeOption Node.combine base overlay = some result → ∀ node ∈ result, node.Sound :=
    fun base overlay => forall_mergeOption base overlay fun _ _ stated member sound =>
      Node.sound_combine sound (overlay stated member)
  refine ⟨forall_mem_nodes_iff.mpr ⟨listed basePath overlayPath parts.pathParameters,
    listed baseQuery overlayQuery parts.queryParameters, given baseBody overlayBody parts.body,
    given baseOutput overlayOutput parts.output⟩, ?_⟩
  intro text stated
  rw [parts.method] at stated
  rcases Option.or_eq_some_iff.mp stated with new | ⟨-, kept⟩
  · exact ofOverlay.method text new
  · exact ofBase.method text kept

/-- A function stays sound when it gets a name. -/
theorem Sound.named
    {function : Function}
    (sound : function.Sound)
    (name : String) :
    (function.named name).Sound := by
  unfold Function.named
  split
  · exact ⟨sound.nodes, sound.method⟩
  · exact sound

end Function

namespace Namespace

/-- Every function of a namespace has the property. -/
structure All (property : Function → Prop) (managed : Namespace) : Prop where
  create : ∀ function ∈ managed.create, property function
  read : ∀ function ∈ managed.read, property function
  update : ∀ function ∈ managed.update, property function
  delete : ∀ function ∈ managed.delete, property function
  list : ∀ function ∈ managed.list, property function
  others : ∀ entry ∈ managed.others.entries, property entry.2

theorem all_iff
    {property : Function → Prop}
    {managed : Namespace} :
    managed.All property ↔ ∀ entry ∈ managed.functions, property entry.2 := by
  constructor
  · rintro ⟨create, read, update, delete, list, others⟩
    simp only [functions, List.mem_append, List.mem_map, Option.mem_toList, or_imp, forall_and,
      forall_exists_index, and_imp]
    refine ⟨⟨⟨⟨⟨?_, ?_⟩, ?_⟩, ?_⟩, ?_⟩, ?_⟩ <;> rintro entry function member rfl
    · exact create function member
    · exact read function member
    · exact update function member
    · exact delete function member
    · exact list function member
    · exact others function member
  · intro all
    refine ⟨?_, ?_, ?_, ?_, ?_, ?_⟩ <;> intro function member
    · exact all (.create, function) (by simp_all [functions])
    · exact all (.read, function) (by simp_all [functions])
    · exact all (.update, function) (by simp_all [functions])
    · exact all (.delete, function) (by simp_all [functions])
    · exact all (.list, function) (by simp_all [functions])
    · exact all (.other, function.2) (List.mem_append_right _ (List.mem_map.mpr ⟨_, member, rfl⟩))

/-- Every function stands in a slot. -/
theorem all_iff_function?
    {property : Function → Prop}
    {managed : Namespace} :
    managed.All property ↔
      ∀ slot, ∀ function ∈ managed.function? slot, property function := by
  constructor
  · intro all slot function found
    cases slot with
    | create => exact all.create function found
    | read => exact all.read function found
    | update => exact all.update function found
    | delete => exact all.delete function found
    | list => exact all.list function found
    | other => exact all.others _ (Order.Table.mem_entries_of_get? found)
  · intro all
    refine ⟨all .create, all .read, all .update, all .delete, all .list, ?_⟩
    intro entry member
    exact all (.other entry.1) entry.2 (Order.Table.get?_eq_some_iff.mpr member)

/-- Two properties of every function make up one. -/
theorem All.and
    {first second : Function → Prop}
    {managed : Namespace}
    (left : managed.All first)
    (right : managed.All second) :
    managed.All fun function => first function ∧ second function := by
  rw [all_iff] at left right ⊢
  exact fun entry member => ⟨left entry member, right entry member⟩

/-- Namespaces with sound functions combine into one with sound functions. -/
theorem sound_combine
    {base overlay result : Namespace}
    (ofBase : base.All Function.Sound)
    (ofOverlay : overlay.All Function.Sound)
    (combined : combine base overlay = some result) :
    result.All Function.Sound := by
  obtain ⟨-, -, -, functions⟩ := combine_eq_some_iff_function?.mp combined
  rw [all_iff_function?] at ofBase ofOverlay ⊢
  intro slot
  refine forall_mergeOption (ofBase slot) (ofOverlay slot) ?_ (functions slot)
  intro existing merged function stated sound
  exact Function.sound_combine sound (ofOverlay slot function stated)

/-- Its functions stay sound when they get names. -/
theorem All.normalize
    {managed : Namespace}
    (sound : managed.All Function.Sound) :
    managed.normalize.All Function.Sound := by
  have given : ∀ {function? : Option Function} {name : String},
      (∀ function ∈ function?, function.Sound) →
        ∀ function ∈ function?.map (Function.named name), function.Sound := by
    intro function? name each function member
    obtain ⟨old, present, rfl⟩ := Option.map_eq_some_iff.mp member
    exact (each old present).named name
  refine ⟨given sound.create, given sound.read, given sound.update, given sound.delete,
    given sound.list, fun entry member => ?_⟩
  obtain ⟨old, present, rfl⟩ := List.mem_map.mp member
  exact (sound.others old present).named old.1

end Namespace

namespace Document

/-- A document that reading can return. -/
structure Sound (document : Document) : Prop where
  schemas : ∀ entry ∈ document.schemas.entries, entry.2.Sound
  functions : ∀ managed ∈ document.namespaces, managed.All Function.Sound

/-- A sound document with a sound override is sound. -/
theorem sound_applyOverride
    {base overlay result : Document}
    (ofBase : base.Sound)
    (ofOverlay : overlay.Sound)
    (applied : base.applyOverride overlay = .ok result) :
    result.Sound := by
  obtain ⟨schemas, namespaces⟩ := combine_eq_some_iff.mp (toOption_eq_some_iff.mpr applied)
  constructor
  · exact forall_mergeTable ofBase.schemas ofOverlay.schemas
      (fun _ _ entry member sound => Node.sound_combine sound (ofOverlay.schemas entry member))
      schemas
  · exact forall_mergeList ofBase.functions ofOverlay.functions
      (fun _ _ stated member sound =>
        Namespace.sound_combine sound (ofOverlay.functions stated member))
      namespaces

/-- A sound document is sound with names for all of its parts. -/
theorem Sound.normalize
    {document : Document}
    (sound : document.Sound) :
    document.normalize.Sound := by
  constructor
  · intro entry member
    obtain ⟨old, present, rfl⟩ := List.mem_map.mp member
    have kept := sound.schemas old present
    change (namedNode old.1 old.2).Sound
    unfold namedNode
    split
    · exact kept.withDeclaration _
    · exact kept
  · intro managed member
    obtain ⟨old, present, rfl⟩ := List.mem_map.mp member
    exact (sound.functions old present).normalize

end Document

end Schema
end SchemaCompiler
