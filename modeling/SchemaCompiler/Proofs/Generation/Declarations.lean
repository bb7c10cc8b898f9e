import SchemaCompiler.Proofs.Generation.Paths
import SchemaCompiler.Proofs.Generation.Warnings

/-!
# Where classes are declared

The class of an object entry is declared in one place: the client file of the first
namespace that manages the entry, or the file of shared types in the module of the entry.
The file that declares a module takes up every file that a run writes there.
-/

namespace SchemaCompiler
namespace Generation

open SchemaCompiler.Client (Definitions SharedType Struct TypeIndex sharedType?)
open SchemaCompiler.Code (Item)
open SchemaCompiler.Order (NameSet)
open SchemaCompiler.Outcome
open SchemaCompiler.Schema

/-! ## Places of entries -/

/-- Only object entries have a place. -/
theorem get?_build
    [Name.Lettering]
    {registry : Registry}
    {namespaces : List Namespace}
    {id : String}
    {shared : SharedType}
    (found : (TypeIndex.build registry namespaces).get? id = some shared) :
    ∃ entry, registry.get? id = some entry ∧ sharedType? namespaces id entry = some shared := by
  have listed := Order.Table.mem_entries_ofList (Order.Table.mem_entries_of_get? found)
  obtain ⟨⟨other, entry⟩, member, placed⟩ := List.mem_filterMap.mp listed
  obtain ⟨place, same, pair⟩ := Option.map_eq_some_iff.mp placed
  cases pair
  exact ⟨entry, Order.Table.get?_eq_some_iff.mpr member, same⟩

/-- An entry that a namespace manages has its place in the module of the first such one. -/
theorem exists_owner
    [Name.Lettering]
    {namespaces : List Namespace}
    {id : String}
    {entry : Node}
    {shared : SharedType}
    (placed : sharedType? namespaces id entry = some shared)
    (isManaged : shared.isManaged = true) :
    ∃ owner ∈ namespaces, owner.schema = id ∧ owner.outputModule = shared.moduleName := by
  cases entry with
  | scalar | array => cases placed
  | object declaration facets children =>
      dsimp only [sharedType?] at placed
      split at placed
      next owner found =>
        obtain rfl := Option.some.inj placed
        have same : owner.schema = id := by simpa using List.find?_some found
        exact ⟨owner, List.mem_of_find?_eq_some found, same, by dsimp only⟩
      next =>
        obtain rfl := Option.some.inj placed
        exact absurd isManaged Bool.false_ne_true

/-- An entry that no namespace manages is not placed with one. -/
theorem not_isManaged
    [Name.Lettering]
    {namespaces : List Namespace}
    {id : String}
    {entry : Node}
    {shared : SharedType}
    (placed : sharedType? namespaces id entry = some shared)
    (unmanaged : ∀ managed ∈ namespaces, managed.schema ≠ id) :
    shared.isManaged = false := by
  by_contra isManaged
  obtain ⟨owner, member, same, -⟩ := exists_owner placed (by simpa using isManaged)
  exact unmanaged owner member same

/-- The entries outside namespaces are those that are not placed with one. -/
theorem mem_unmanaged_iff
    {index : TypeIndex}
    {id : String}
    {shared : SharedType} :
    (id, shared) ∈ index.unmanaged ↔ index.get? id = some shared ∧ shared.isManaged = false := by
  rw [TypeIndex.get?, Order.Table.get?_eq_some_iff]
  simp [TypeIndex.unmanaged]

theorem classOf_eq
    [Name.Lettering]
    {index : TypeIndex}
    {id : String}
    {shared : SharedType}
    (found : index.get? id = some shared) :
    index.classOf id = shared.className := by
  simp [TypeIndex.classOf, found]

/-! ## Structs of entries -/

/-- The items declare a struct of the name. -/
def DeclaresStruct (items : List Item) (name : String) : Prop :=
  ∃ markers fields, Item.struct markers name fields ∈ items

/-- A client file declares the structs of its definitions. -/
theorem declaresStruct_clientFile
    [Name.Lettering]
    (project : Project)
    (moduleName : String)
    {definitions : Definitions}
    {struct : Struct}
    (member : struct ∈ definitions.structs) :
    DeclaresStruct (clientFile project moduleName definitions) struct.name := by
  have declared : ∃ markers fields,
      Item.struct markers struct.name fields ∈ structItems struct := ⟨_, _, List.mem_cons_self⟩
  obtain ⟨markers, fields, declared⟩ := declared
  refine ⟨markers, fields, ?_⟩
  simp only [clientFile, clientItems, List.append_assoc, List.mem_append, List.mem_flatMap]
  exact .inr (.inr (.inl ⟨struct, member, declared⟩))

variable
  {project : Project}
  {only : NameSet}
  {id : String}
  {definitions : Definitions}

/-- The client of an entry declares the class of the entry. -/
theorem exists_struct_of_convertEntry
    [Name.Lettering]
    {registry : Registry}
    {index : TypeIndex}
    (made : Client.convertEntry registry index id = .ok definitions) :
    ∃ struct ∈ definitions.structs, struct.name = index.classOf id := by
  obtain ⟨root, struct, emission, found, converted, rfl⟩ := Client.exists_of_convertEntry made
  refine ⟨_, List.mem_append_right _ (List.mem_singleton.mpr rfl), ?_⟩
  cases root with
  | scalar | array => cases converted
  | object declaration facets children =>
      exact ((Client.traced_conversion registry index).1 _ _ _ _ _ _ _ converted).1

/-- The client of a namespace declares the class of its entry. -/
theorem exists_struct_of_convert
    [Name.Lettering]
    {managed : Namespace}
    {schema : Resource.ResourceSchema}
    (converted : convert project managed = some (.ok (definitions, schema))) :
    ∃ struct ∈ definitions.structs, struct.name = project.index.classOf managed.schema := by
  obtain ⟨entry, made, rest⟩ := bind_eq_ok_iff.mp (convertNamespace_of_convert converted)
  obtain ⟨functions, -, same⟩ := bind_eq_ok_iff.mp rest
  cases same
  obtain ⟨struct, member, named⟩ := exists_struct_of_convertEntry made
  exact ⟨struct, List.mem_append_left _ member, named⟩

/-- The shared types have the structs of every entry among them that can be converted. -/
theorem subset_convertShared
    [Name.Lettering]
    {ids : List String}
    (member : id ∈ ids)
    (made : Client.convertEntry project.registry project.index id = .ok definitions) :
    definitions.structs ⊆ (convertShared project ids).1.structs := by
  induction ids with
  | nil => cases member
  | cons other rest hypothesis =>
      dsimp only [convertShared]
      rcases List.mem_cons.mp member with rfl | later
      · rw [made]
        exact List.subset_append_left _ _
      · split
        · exact List.subset_append_of_subset_right _ (hypothesis later)
        · exact hypothesis later

/-- So their file declares the class of the entry. -/
theorem declaresStruct_convertShared
    [Name.Lettering]
    {ids : List String}
    (moduleName : String)
    (member : id ∈ ids)
    (made : Client.convertEntry project.registry project.index id = .ok definitions) :
    DeclaresStruct (clientFile project moduleName (convertShared project ids).1)
      (project.index.classOf id) := by
  obtain ⟨struct, inside, named⟩ := exists_struct_of_convertEntry made
  rw [← named]
  exact declaresStruct_clientFile project moduleName (subset_convertShared member made inside)

/-- A run declares the class of an entry in a client file of the module. -/
def DeclaresClass
    [Name.Lettering]
    (project : Project)
    (only : NameSet)
    (moduleName className : String) : Prop :=
  ∃ stem definitions, IsClientFile project only moduleName stem definitions ∧
    DeclaresStruct (clientFile project moduleName definitions) className

/-- A selected namespace that can be converted declares the class of its entry. -/
theorem declaresClass_of_convert
    [Name.Lettering]
    {titled : Titled}
    {schema : Resource.ResourceSchema}
    (selected : titled ∈ select project only)
    (converted : convert project titled.managed = some (.ok (definitions, schema))) :
    DeclaresClass project only titled.managed.outputModule
      (project.index.classOf titled.managed.schema) := by
  obtain ⟨struct, member, named⟩ := exists_struct_of_convert converted
  refine ⟨_, definitions, .managed selected converted, ?_⟩
  rw [← named]
  exact declaresStruct_clientFile project _ member

/-- A wanted shared type that can be converted is one of a module with a file. -/
theorem exists_shared_of_convertEntry
    [Name.Lettering]
    {shared : SharedType}
    (wanted : (id, shared) ∈ wantedTypes project only)
    (made : Client.convertEntry project.registry project.index id = .ok definitions) :
    ∃ ids, (shared.moduleName, ids) ∈ sharedModules (wantedTypes project only) ∧ id ∈ ids ∧
      (convertShared project ids).1.structs.isEmpty = false := by
  obtain ⟨ids, isModule, member⟩ := exists_mem_sharedModules_iff.mpr ⟨shared, wanted, rfl⟩
  obtain ⟨struct, inside, -⟩ := exists_struct_of_convertEntry made
  exact ⟨ids, isModule, member,
    List.isEmpty_eq_false_iff.mpr (List.ne_nil_of_mem (subset_convertShared member made inside))⟩

/-! ## Parts of modules -/

/-- The stem is one of a file of the module. -/
def Modules.HasPart (modules : Modules) (directory stem : String) : Prop :=
  ∃ stems, modules.get? directory = some stems ∧ stem ∈ stems.names

/-- A module has the part that is added last, and keeps those that it had. -/
theorem Modules.hasPart_addPart_iff
    {modules : Modules}
    {directory stem name other : String} :
    (modules.addPart name other).HasPart directory stem ↔
      directory = name ∧ stem = other ∨ modules.HasPart directory stem := by
  simp only [HasPart, addPart, Order.Table.get?_set]
  by_cases same : directory = name
  · subst same
    cases known : modules.get? directory <;> simp [NameSet.insert, NameSet.empty]
  · simp [same]

/-- A module that is named has parts, and keeps that when more are added. -/
theorem Modules.exists_part_addPart
    {modules : Modules}
    (filled : ∀ directory ∈ modules.names, ∃ stem, modules.HasPart directory stem)
    (name stem : String) :
    ∀ directory ∈ (modules.addPart name stem).names, ∃ part,
      (modules.addPart name stem).HasPart directory part := by
  intro directory member
  simp only [hasPart_addPart_iff]
  by_cases same : directory = name
  · exact ⟨stem, .inl ⟨same, rfl⟩⟩
  · obtain ⟨stems, found⟩ := Order.Table.exists_get?_of_mem_names member
    rw [addPart, Order.Table.get?_set, if_neg same] at found
    obtain ⟨part, known⟩ := filled directory (Order.Table.mem_names_of_get? found)
    exact ⟨part, .inr known⟩

/-- The parts of the modules are the files that are made, and every module has some. -/
structure Progress.Listed (progress : Progress) : Prop where
  parts : ∀ directory stem, progress.modules.HasPart directory stem ↔
    ∃ items, ⟨.ofPart directory stem, items⟩ ∈ progress.drafts
  filled : ∀ directory ∈ progress.modules.names, ∃ stem,
    progress.modules.HasPart directory stem

namespace Progress

variable {before after : Progress}

/-- Counts and warnings are no parts. -/
theorem Listed.counted
    (listed : before.Listed)
    (statistics : Statistics) :
    Listed { before with statistics := statistics } := ⟨listed.parts, listed.filled⟩

theorem Listed.addPart
    (listed : before.Listed)
    (directory stem : String)
    (items : List Item) :
    (before.addPart directory stem items).Listed := by
  refine ⟨fun other part => ?_, Modules.exists_part_addPart listed.filled directory stem⟩
  rw [Progress.addPart, Modules.hasPart_addPart_iff, listed.parts]
  simp only [List.mem_append, List.mem_singleton, Draft.mk.injEq, ofPart_inj]
  constructor
  · rintro (⟨rfl, rfl⟩ | ⟨others, old⟩)
    · exact ⟨items, .inr ⟨⟨rfl, rfl⟩, rfl⟩⟩
    · exact ⟨others, .inl old⟩
  · rintro ⟨others, old | ⟨same, -⟩⟩
    · exact .inr ⟨others, old⟩
    · exact .inl same

theorem Listed.addNamespace
    [Name.Lettering]
    {titled : Titled}
    (listed : before.Listed)
    (added : addNamespace project before titled = some after) :
    after.Listed := by
  obtain ⟨converted, -, added⟩ := Option.bind_eq_some_iff.mp added
  cases converted with
  | error error =>
      cases added
      exact listed.counted _
  | ok made =>
      cases added
      exact ((listed.counted _).addPart _ _ _).addPart _ _ _

theorem Listed.foldlM
    [Name.Lettering]
    {titles : List Titled}
    (listed : before.Listed)
    (added : titles.foldlM (Generation.addNamespace project) before = some after) :
    after.Listed := by
  induction titles generalizing before with
  | nil =>
      cases added
      exact listed
  | cons titled rest hypothesis =>
      rw [List.foldlM_cons] at added
      obtain ⟨next, first, rest⟩ := Option.bind_eq_some_iff.mp added
      exact hypothesis (listed.addNamespace first) rest

theorem Listed.foldl_warn
    (listed : before.Listed)
    (warnings : List Warning) :
    (warnings.foldl warn before).Listed := by
  induction warnings generalizing before with
  | nil => exact listed
  | cons warning rest hypothesis => exact hypothesis (listed.counted _)

theorem Listed.addShared
    [Name.Lettering]
    (listed : before.Listed)
    (shared : String × List String) :
    (addShared project before shared).Listed := by
  dsimp only [Generation.addShared]
  split
  · exact listed.foldl_warn _
  · exact ((listed.foldl_warn _).counted _).addPart _ _ _

theorem Listed.foldl_addShared
    [Name.Lettering]
    (listed : before.Listed)
    (modules : List (String × List String)) :
    (modules.foldl (Generation.addShared project) before).Listed := by
  induction modules generalizing before with
  | nil => exact listed
  | cons shared rest hypothesis => exact hypothesis (listed.addShared shared)

end Progress

/-- The parts of the modules of a run are the files that it has to write. -/
theorem listed_of_progress
    [Name.Lettering]
    {made : Progress}
    (ran : progress project only = some made) :
    made.Listed := by
  obtain ⟨managed, converted, same⟩ := Option.bind_eq_some_iff.mp ran
  cases same
  have nothing : (start project only).Listed :=
    ⟨fun directory stem => by simp [start, Modules.HasPart, Order.Table.empty, Order.Table.get?],
      List.forall_mem_nil _⟩
  exact (nothing.foldlM converted).foldl_addShared _

/-- Every client file of a run is a part of its module. -/
theorem hasPart_of_isClientFile
    [Name.Lettering]
    {made : Progress}
    {directory stem : String}
    (ran : progress project only = some made)
    (isFile : IsClientFile project only directory stem definitions) :
    made.modules.HasPart directory stem :=
  ((listed_of_progress ran).parts directory stem).mpr
    ⟨_, (mem_drafts_iff ran).mpr (.client isFile)⟩

end Generation
end SchemaCompiler
