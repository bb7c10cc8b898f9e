import SchemaCompiler.Name.Standard
import SchemaCompiler.Proofs.Client.Reach
import SchemaCompiler.Proofs.Generation.Imports

/-!
# Runs over selected namespaces

A run over selected namespaces writes their files as a run over all namespaces does. The
shared types that it keeps are those that the selected namespaces reach by mentions, and
the dependencies of its client files stay among them.
-/

namespace SchemaCompiler
namespace Generation

open SchemaCompiler.Client (Definitions SharedType)
open SchemaCompiler.Order (NameSet)
open SchemaCompiler.Schema

/-! ## Shared types that are kept -/

/-- A run keeps the shared type of the id, if it is one: it keeps all of them without a
selection, and with one those that the selected namespaces need. -/
def Keeps (project : Project) (only : NameSet) (id : String) : Prop :=
  only.isEmpty = true ∨ id ∈ wantedIds project (select project only)

variable
  {project : Project}
  {only : NameSet}

theorem mem_wantedTypes_iff
    {id : String}
    {shared : SharedType} :
    (id, shared) ∈ wantedTypes project only ↔
      project.index.get? id = some shared ∧ shared.isManaged = false ∧ Keeps project only id := by
  rw [← and_assoc, ← mem_unmanaged_iff, Keeps]
  dsimp only [wantedTypes]
  split
  next all => simp [all]
  next some =>
    have member : (wantedIds project (select project only)).contains id = true ↔
        id ∈ wantedIds project (select project only) := List.contains_iff_mem
    rw [List.mem_filter, member, or_iff_right some]

/-- An entry is kept with everything that it mentions. -/
theorem closed_keeps
    (project : Project)
    (only : NameSet) :
    project.registry.Closed (Keeps project only) := by
  intro id kept other mentions
  exact kept.imp_right fun wanted => Registry.closed_reachable _ _ id wanted other mentions

/-- The roots of the selected namespaces are kept: their entries, and what the nodes of their
functions mention. -/
theorem keeps_of_mem_select
    {titled : Titled}
    (selected : titled ∈ select project only) :
    Keeps project only titled.managed.schema ∧
      ∀ function ∈ titled.managed.functions, ∀ node ∈ function.2.nodes,
        node.Within (Keeps project only) := by
  have root : ∀ id ∈ titled.managed.schema :: titled.managed.functions.flatMap (fun function =>
      function.2.nodes.flatMap Node.mentions), Keeps project only id := by
    intro id member
    refine .inr (Registry.mem_reachable_iff.mpr (.inl ?_))
    exact (NameSet.mem_ofList _ id).mpr (List.mem_flatMap.mpr ⟨titled, selected, member⟩)
  obtain ⟨entry, mentioned⟩ := List.forall_mem_cons.mp root
  refine ⟨entry, fun function isFunction node isNode id member => mentioned id ?_⟩
  exact List.mem_flatMap.mpr ⟨function, isFunction, List.mem_flatMap.mpr ⟨node, isNode, member⟩⟩

/-- The client files of a run depend on entries that the run keeps. -/
theorem dependsOnly_of_isClientFile
    [Name.Lettering]
    {directory stem : String}
    {definitions : Definitions}
    (isFile : IsClientFile project only directory stem definitions) :
    definitions.DependsOnly (Keeps project only) := by
  cases isFile with
  | managed selected converted =>
      obtain ⟨entry, nodes⟩ := keeps_of_mem_select selected
      exact Client.dependsOnly_convertNamespace (closed_keeps project only) entry nodes
        (convertNamespace_of_convert converted)
  | @shared name ids isModule filled =>
      refine good_convertShared Definitions.accumulates_dependsOnly fun id member _ => ?_
      obtain ⟨shared, wanted, -⟩ := exists_mem_sharedModules_iff.mp ⟨ids, isModule, member⟩
      exact Client.dependsOnly_convertEntry (closed_keeps project only)
        (mem_wantedTypes_iff.mp wanted).2.2

/-- A dependency that no namespace manages is a shared type that the run wants. -/
theorem exists_wanted
    [Name.Lettering]
    {document : Document}
    {directory stem : String}
    {definitions : Definitions}
    (isFile : IsClientFile (.ofDocument document) only directory stem definitions)
    {id : String}
    (depends : id ∈ definitions.dependencies.names)
    (unmanaged : ∀ managed ∈ document.namespaces, managed.schema ≠ id) :
    ∃ shared, (id, shared) ∈ wantedTypes (.ofDocument document) only := by
  obtain ⟨entry, registered, isObject⟩ := (traced_of_isClientFile isFile).registered id depends
  obtain ⟨shared, found⟩ := exists_shared_of_object document.namespaces registered isObject
  obtain ⟨_, _, placed⟩ := get?_build found
  exact ⟨shared, mem_wantedTypes_iff.mpr
    ⟨found, not_isManaged placed unmanaged, dependsOnly_of_isClientFile isFile id depends⟩⟩

/-! ## Files of a selection -/

/-- Selected namespaces are among all namespaces. -/
theorem mem_select_empty
    {titled : Titled}
    (selected : titled ∈ select project only) :
    titled ∈ select project .empty := by
  unfold select at selected
  split at selected
  · exact selected
  · exact List.mem_of_mem_filter selected

variable
  {document : Document}
  {request : Request}
  {output all : Output}

/-- A run writes the files of its namespaces. -/
theorem mem_files_of_isDraftOf
    [Name.Lettering]
    {titled : Titled}
    {draft : Draft}
    (ran : generate project request = some (.ok output))
    (selected : titled ∈ select project request.only)
    (ofNamespace : IsDraftOf project titled draft) :
    rendered request draft ∈ output.files := by
  refine (mem_files_iff ran).mpr ⟨draft, rfl, .inl ?_⟩
  obtain ⟨definitions, schema, converted, rfl | rfl⟩ := ofNamespace
  · exact .client (.managed selected converted)
  · exact .resource selected converted

/-- The files of a run are those of its namespaces, those of shared types and those that declare
modules. -/
theorem draft_of_mem_files
    [Name.Lettering]
    {file : GeneratedFile}
    (ran : generate project request = some (.ok output))
    (member : file ∈ output.files) :
    (∃ titled ∈ select project request.only, ∃ draft,
        IsDraftOf project titled draft ∧ file = rendered request draft) ∨
      (∃ shared ∈ sharedModules (wantedTypes project request.only), ∃ draft,
        IsSharedDraftOf project shared draft ∧ file = rendered request draft) ∨
      file.path.name = "mod.rs" := by
  obtain ⟨draft, rfl, written | ⟨made, -, declares⟩⟩ := (mem_files_iff ran).mp member
  · cases written with
    | client isFile =>
        cases isFile with
        | managed selected converted =>
            exact .inl ⟨_, selected, _, ⟨_, _, converted, .inl rfl⟩, rfl⟩
        | shared isModule filled => exact .inr (.inl ⟨_, isModule, _, ⟨filled, rfl⟩, rfl⟩)
    | resource selected converted =>
        exact .inl ⟨_, selected, _, ⟨_, _, converted, .inr rfl⟩, rfl⟩
  · exact .inr (.inr (name_of_mem_moduleDrafts declares))

/-! ## A selection that needs a module without namespaces -/

/-- A run over the second of the namespaces that need a third module. -/
def uplinkRequest : Request where
  source := "doc.json"
  only := .ofList ["Uplink"]

/-- The run selects the second namespace. -/
theorem select_uplinkRequest :
    ∃ slug, select linkProject uplinkRequest.only = [⟨managingNamespace "Uplink" none, slug⟩] := by
  obtain ⟨first, second, all⟩ := namespaces_linkProject
  have some : uplinkRequest.only.isEmpty = false := rfl
  rw [select, some, all]
  exact ⟨second, rfl⟩

/-- The selected namespace needs the entry without a namespace, which its own entry mentions. -/
theorem keeps_uplinkRequest : Keeps linkProject uplinkRequest.only "addr" := by
  obtain ⟨slug, selected⟩ := select_uplinkRequest
  have member : (⟨managingNamespace "Uplink" none, slug⟩ : Titled) ∈
      select linkProject uplinkRequest.only := by
    rw [selected]
    exact List.mem_singleton.mpr rfl
  have mentioned : "addr" ∈ linkProject.registry.mentioned "iface" :=
    Registry.mem_mentioned_iff.mpr ⟨interfaceEntry, rfl, by decide⟩
  exact closed_keeps _ _ "iface" (keeps_of_mem_select member).1 "addr" mentioned

/-- So the run wants what a run over both namespaces wants. -/
theorem wantedTypes_uplinkRequest :
    wantedTypes linkProject uplinkRequest.only = wantedTypes linkProject .empty := by
  have unmanaged : linkProject.index.unmanaged =
      [("addr", ⟨"net", linkProject.index.classOf "addr", false⟩)] := rfl
  have some : uplinkRequest.only.isEmpty = false := rfl
  have wanted := keeps_uplinkRequest.resolve_left (some ▸ Bool.false_ne_true)
  have all : wantedTypes linkProject .empty = linkProject.index.unmanaged := rfl
  have contained : (wantedIds linkProject (select linkProject uplinkRequest.only)).contains
      "addr" = true := List.contains_iff_mem.mpr wanted
  rw [all, wantedTypes, some, if_neg Bool.false_ne_true, unmanaged]
  exact List.filter_eq_self.mpr (List.forall_mem_singleton.mpr contained)

/-- The run has an output and skips nothing. -/
theorem generate_uplinkRequest :
    ∃ output, generate linkProject uplinkRequest = some (.ok output) ∧
      output.statistics.skipped = 0 := by
  obtain ⟨first, second, all⟩ := namespaces_linkProject
  obtain ⟨slug, selected⟩ := select_uplinkRequest
  have known : ∀ name ∈ ["Uplink"], name ∈ ["Iface", "Uplink"] := by decide
  refine generate_linkProject uplinkRequest known ?_ ?_ ?_ (by decide)
  · rw [selected]
    rfl
  · have names : uplinkRequest.only.names = ["Uplink"] := rfl
    simp [unknownNames, all, names, managingNamespace]
  · rw [wantedTypes_uplinkRequest]
    rfl

/-! ## What a selection leaves as it is -/

/-- A run with a selection writes the files of the selected namespaces, with the same paths and
texts as a run over all namespaces, and beside them files of shared types and files that declare
modules only. The class of every dependency of its client files that no namespace manages is
declared in a file of shared types that it writes, unless it warns that the entry failed. -/
theorem selection_keeps_dependencies
    [Name.Lettering]
    (ran : generate (.ofDocument document) request = some (.ok output))
    (ranAll : generate (.ofDocument document) { request with only := .empty } = some (.ok all)) :
    (∀ titled ∈ select (.ofDocument document) request.only, ∀ draft,
      IsDraftOf (.ofDocument document) titled draft →
        rendered request draft ∈ output.files ∧ rendered request draft ∈ all.files) ∧
    (∀ file ∈ output.files,
      (∃ titled ∈ select (.ofDocument document) request.only, ∃ draft,
        IsDraftOf (.ofDocument document) titled draft ∧ file = rendered request draft) ∨
      (∃ shared ∈ sharedModules (wantedTypes (.ofDocument document) request.only), ∃ draft,
        IsSharedDraftOf (.ofDocument document) shared draft ∧ file = rendered request draft) ∨
      file.path.name = "mod.rs") ∧
    ∀ directory stem definitions,
      IsClientFile (.ofDocument document) request.only directory stem definitions →
        ∀ id ∈ definitions.dependencies.names,
          (∀ managed ∈ document.namespaces, managed.schema ≠ id) →
            (∃ shared ∈ sharedModules (wantedTypes (.ofDocument document) request.only),
              ∃ draft own,
                IsSharedDraftOf (.ofDocument document) shared draft ∧
                rendered request draft ∈ output.files ∧
                id ∈ shared.2 ∧
                Client.convertEntry (Project.ofDocument document).registry
                  (Project.ofDocument document).index id = .ok own ∧
                own.structs ⊆ (convertShared (.ofDocument document) shared.2).1.structs ∧
                DeclaresStruct draft.items ((Project.ofDocument document).index.classOf id)) ∨
            ∃ error,
              Client.convertEntry (Project.ofDocument document).registry
                (Project.ofDocument document).index id = .error error ∧
              .sharedTypeFailed id error.message ∈ output.statistics.warnings := by
  refine ⟨?_, fun file member => draft_of_mem_files ran member, ?_⟩
  · intro titled selected draft ofNamespace
    have again : rendered { request with only := .empty } draft ∈ all.files :=
      mem_files_of_isDraftOf ranAll (mem_select_empty selected) ofNamespace
    exact ⟨mem_files_of_isDraftOf ran selected ofNamespace, again⟩
  · intro directory stem definitions isFile id depends unmanaged
    obtain ⟨made, progressed, same⟩ := exists_progress ran
    obtain ⟨shared, wanted⟩ := exists_wanted isFile depends unmanaged
    cases converted : Client.convertEntry (Project.ofDocument document).registry
      (Project.ofDocument document).index id with
    | ok own =>
        obtain ⟨ids, isModule, member, filled⟩ := exists_shared_of_convertEntry wanted converted
        exact .inl ⟨_, isModule, _, own, ⟨filled, rfl⟩,
          (mem_files_iff ran).mpr ⟨_, rfl, .inl (.client (.shared isModule filled))⟩, member, rfl,
          subset_convertShared member converted, declaresStruct_convertShared _ member converted⟩
    | error error =>
        refine .inr ⟨error, rfl, ?_⟩
        rw [same]
        exact (mem_warnings_iff progressed).mpr
          (.inr (.inr ⟨id, shared, wanted, error, converted, rfl⟩))

/-- The file of the selected namespace is as in the run over both, and the class that it uses
is declared in a file of shared types. -/
theorem selection_keeps_dependencies_uplinkRequest :
    ∃ output all titled draft shared declaring,
      generate linkProject uplinkRequest = some (.ok output) ∧
      generate linkProject { uplinkRequest with only := .empty } = some (.ok all) ∧
      titled ∈ select linkProject uplinkRequest.only ∧
      IsDraftOf linkProject titled draft ∧
      rendered uplinkRequest draft ∈ output.files ∧
      rendered uplinkRequest draft ∈ all.files ∧
      IsSharedDraftOf linkProject shared declaring ∧
      rendered uplinkRequest declaring ∈ output.files ∧
      DeclaresStruct declaring.items (linkProject.index.classOf "addr") := by
  obtain ⟨output, ran, complete⟩ := generate_uplinkRequest
  obtain ⟨all, ranAll, -⟩ := generate_linkDocument
  obtain ⟨slug, selected⟩ := select_uplinkRequest
  obtain ⟨attributes, converted⟩ := convert_managingNamespace linkProject rfl "Uplink" none
  have member : (⟨managingNamespace "Uplink" none, slug⟩ : Titled) ∈
      select linkProject uplinkRequest.only := by
    rw [selected]
    exact List.mem_singleton.mpr rfl
  obtain ⟨same, -, kept⟩ := selection_keeps_dependencies ran ranAll
  have ofNamespace := same _ member _ ⟨_, _, converted, .inl rfl⟩
  have unmanaged : ∀ managed ∈ linkDocument.namespaces, managed.schema ≠ "addr" := by decide
  rcases kept _ _ _ (.managed member converted) "addr" List.mem_cons_self unmanaged with
    ⟨shared, -, declaring, -, isShared, written, -, -, -, declared⟩ | ⟨error, -, warned⟩
  · exact ⟨output, all, _, _, shared, declaring, ran, ranAll, member,
      ⟨_, _, converted, .inl rfl⟩, ofNamespace.1, ofNamespace.2, isShared, written, declared⟩
  · cases not_isSkippedItem complete _ warned

end Generation
end SchemaCompiler
