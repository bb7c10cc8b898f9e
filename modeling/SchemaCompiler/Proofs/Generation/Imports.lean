import SchemaCompiler.Name.Standard
import SchemaCompiler.Proofs.Generation.Declarations

/-!
# Imports of client files

A client file imports classes that other modules declare. In a run that writes all
namespaces and skips nothing, each of these classes is declared in a client file of the
module that it is imported from, and the file that declares the module passes it on.
-/

namespace SchemaCompiler
namespace Generation

open SchemaCompiler.Client (Definitions Import)
open SchemaCompiler.Code (Item arePlain)
open SchemaCompiler.Schema

/-! ## Imports -/

/-- The class that an item imports from a module of the crate. -/
def imported? : Item → Option Import
  | .use false ["crate", moduleName] (.one className) => some ⟨moduleName, className⟩
  | _ => none

theorem isView_imported? : IsView imported? (fun _ => none) (fun _ => none) some :=
  ⟨fun _ _ _ => rfl, fun _ _ _ => rfl, fun _ => rfl, fun _ _ => rfl, rfl⟩

/-- A client file has the imports of its dependencies and no others. -/
theorem imports_clientItems
    [Name.Lettering]
    (definitions : Definitions)
    (imports : List Import) :
    (clientItems definitions imports).filterMap imported? = imports := by
  have output : ∀ output : Client.Output,
      (IsView.ofOutput (fun _ => none) (fun _ => none) output : Option Import) = none := by
    rintro (⟨name, documentation, target⟩ | ⟨definition⟩) <;> rfl
  rw [isView_imported?.filterMap_clientItems, List.filterMap_some, List.filterMap_none,
    List.filterMap_none, funext output, List.filterMap_none]
  simp only [List.append_nil]

/-- A client file imports the class of a dependency from the module of its place. -/
theorem exists_dependency
    [Name.Lettering]
    {project : Project}
    {directory moduleName className : String}
    {definitions : Definitions}
    (imported : .use false ["crate", moduleName] (.one className) ∈
      clientFile project directory definitions) :
    ∃ id ∈ definitions.dependencies.names, ∃ shared, project.index.get? id = some shared ∧
      shared.moduleName = moduleName ∧ shared.className = className := by
  have required : ⟨moduleName, className⟩ ∈
      Import.ofDependencies project.index directory definitions.dependencies := by
    rw [← imports_clientItems definitions (Import.ofDependencies ..)]
    exact List.mem_filterMap.mpr ⟨_, imported, rfl⟩
  obtain ⟨id, member, shared, found, -, same⟩ := mem_ofDependencies_iff.mp required
  obtain ⟨rfl, rfl⟩ := Import.mk.inj same
  exact ⟨id, member, shared, found, rfl, rfl⟩

/-! ## Complete runs over all namespaces -/

variable
  {document : Document}
  {request : Request}
  {output : Output}

/-- Every namespace of a document has a slug. -/
theorem exists_titled
    [Name.Lettering]
    {managed : Namespace}
    (member : managed ∈ document.namespaces) :
    ∃ titled ∈ (Project.ofDocument document).namespaces, titled.managed = managed := by
  have all : ((Project.ofDocument document).namespaces).map Titled.managed = document.namespaces :=
    managed_assignSlugs .empty document.namespaces
  rw [← all] at member
  exact List.mem_map.mp member

/-- The output has the counts and warnings of what a run has made. -/
theorem exists_progress
    [Name.Lettering]
    {project : Project}
    (ran : generate project request = some (.ok output)) :
    ∃ made, progress project request.only = some made ∧ output.statistics = made.statistics := by
  obtain ⟨made, progressed, laidOut⟩ := Option.bind_eq_some_iff.mp ran
  have same := Option.some.inj laidOut
  dsimp only [Generation.output] at same
  split at same
  · cases same
  · cases same
    exact ⟨made, progressed, rfl⟩

/-- A complete run over all namespaces declares the class of every object entry in its place. -/
theorem declaresClass_of_complete
    [Name.Lettering]
    {made : Progress}
    (ran : progress (.ofDocument document) .empty = some made)
    (complete : made.statistics.skipped = 0)
    {id : String}
    {shared : Client.SharedType}
    (found : (Project.ofDocument document).index.get? id = some shared) :
    DeclaresClass (.ofDocument document) .empty shared.moduleName shared.className := by
  obtain ⟨entry, registered, placed⟩ := get?_build found
  rw [← classOf_eq found]
  cases isManaged : shared.isManaged with
  | true =>
      obtain ⟨owner, member, rfl, place⟩ := exists_owner placed isManaged
      obtain ⟨titled, selected, rfl⟩ := exists_titled member
      obtain ⟨definitions, schema, converted⟩ :=
        exists_convert_of_complete ran complete selected
      rw [← place]
      exact declaresClass_of_convert selected converted
  | false =>
      have wanted : (id, shared) ∈ wantedTypes (.ofDocument document) .empty :=
        mem_unmanaged_iff.mpr ⟨found, isManaged⟩
      obtain ⟨definitions, converted⟩ := exists_convertEntry_of_complete ran complete wanted
      obtain ⟨ids, isModule, member, filled⟩ := exists_shared_of_convertEntry wanted converted
      exact ⟨_, _, .shared isModule filled, declaresStruct_convertShared _ member converted⟩

/-- The files of a run are client files, resource files and files that declare modules. -/
theorem cases_of_mem_files
    [Name.Lettering]
    {project : Project}
    {file : GeneratedFile}
    (ran : generate project request = some (.ok output))
    (member : file ∈ output.files) :
    (∃ directory stem definitions, IsClientFile project request.only directory stem definitions ∧
        file = rendered request
          ⟨.ofPart directory stem, clientFile project directory definitions⟩) ∨
      (∃ titled ∈ select project request.only,
        file.path =
          .ofPart titled.managed.outputModule (titled.managed.fileStem ++ "_resource")) ∨
      file.path.name = "mod.rs" := by
  obtain ⟨draft, rfl, written | ⟨made, -, declares⟩⟩ := (mem_files_iff ran).mp member
  · cases written with
    | client isFile => exact .inl ⟨_, _, _, isFile, rfl⟩
    | resource selected _ => exact .inr (.inl ⟨_, selected, rfl⟩)
  · exact .inr (.inr (name_of_mem_moduleDrafts declares))

/-- The file that declares a module passes on what is in the client files of the module. -/
theorem exists_reexport
    [Name.Lettering]
    {project : Project}
    {directory stem : String}
    {definitions : Definitions}
    (ran : generate project request = some (.ok output))
    (isFile : IsClientFile project request.only directory stem definitions) :
    ∃ declarations, rendered request ⟨.ofPart directory "mod", declarations⟩ ∈ output.files ∧
      .part false stem ∈ declarations ∧ .use true [stem] .everything ∈ declarations := by
  obtain ⟨made, progressed, -⟩ := exists_progress ran
  obtain ⟨stems, known, member⟩ := hasPart_of_isClientFile progressed isFile
  have declares : moduleDraft directory stems ∈ moduleDrafts made.modules :=
    List.mem_append_left _
      (List.mem_map.mpr ⟨_, Order.Table.mem_entries_of_get? known, rfl⟩)
  refine ⟨(moduleDraft directory stems).items,
    (mem_files_iff ran).mpr ⟨_, rfl, .inr ⟨made, progressed, declares⟩⟩, ?_, ?_⟩
  · exact List.mem_append_left _ (List.mem_map_of_mem member)
  · exact List.mem_append_right _ (List.mem_map.mpr ⟨stem, member, rfl⟩)

/-! ## Two modules that need a third -/

/-- Two namespaces of one entry, each with a module of its own, beside an entry in a module
without namespaces. -/
def linkDocument : Document :=
  { interfaceDocument with
    namespaces := [managingNamespace "Iface" none, managingNamespace "Uplink" none] }

/-- The document made ready. -/
def linkProject : Project := .ofDocument linkDocument

/-- The namespaces have one slug each. -/
theorem namespaces_linkProject :
    ∃ first second, linkProject.namespaces =
      [⟨managingNamespace "Iface" none, first⟩, ⟨managingNamespace "Uplink" none, second⟩] :=
  exists_slugs (managed_assignSlugs .empty linkDocument.namespaces)

/-- The modules with the parts of a namespace of the entry. -/
def linkParts [Name.Lettering] (modules : Modules) (name : String) : Modules :=
  let managed := managingNamespace name none
  (modules.addPart managed.outputModule (managed.fileStem ++ "_client")).addPart
    managed.outputModule (managed.fileStem ++ "_resource")

/-- The names in the files of the namespaces are plain. -/
theorem plain_linkProject :
    (∀ name ∈ ["Iface", "Uplink"],
      arePlain (clientFile linkProject (managingNamespace name none).outputModule
          (interfaceClient linkProject.index)) ∧
        arePlain (resourceItems
          (Resource.schemaOf (managingNamespace name none) { name := "iface" } []) "")) ∧
      arePlain (clientFile linkProject "net"
        { structs := [{ name := linkProject.index.classOf "addr" }] }) := by
  decide +kernel

/-- Namespaces of the entry add their parts, no warning and only plain names. -/
theorem foldlM_linkProject
    {names : List String}
    (known : ∀ name ∈ names, name ∈ ["Iface", "Uplink"])
    {titles : List Titled}
    (managed : titles.map Titled.managed = names.map (managingNamespace · none))
    (before : Progress) :
    ∃ after, titles.foldlM (addNamespace linkProject) before = some after ∧
      after.statistics.warnings = before.statistics.warnings ∧
      after.modules = names.foldl linkParts before.modules ∧
      ((∀ draft ∈ before.drafts, arePlain draft.items) →
        ∀ draft ∈ after.drafts, arePlain draft.items) := by
  induction names generalizing titles before with
  | nil =>
      rw [List.map_eq_nil_iff.mp managed]
      exact ⟨before, rfl, rfl, rfl, id⟩
  | cons name rest hypothesis =>
      obtain ⟨⟨_, slug⟩, others, rfl, rfl, rest⟩ := List.map_eq_cons_iff.mp managed
      obtain ⟨first, known⟩ := List.forall_mem_cons.mp known
      obtain ⟨client, resource⟩ := plain_linkProject.1 name first
      obtain ⟨attributes, converted⟩ := convert_managingNamespace linkProject rfl name none
      have plainResource : arePlain (resourceItems
          (Resource.schemaOf (managingNamespace name none) { name := "iface" } attributes) "") :=
        resource
      obtain ⟨after, ran, warnings, modules, plain⟩ := hypothesis known rest
        (addFiles linkProject before ⟨managingNamespace name none, slug⟩
          (interfaceClient linkProject.index)
          (Resource.schemaOf (managingNamespace name none) { name := "iface" } attributes))
      refine ⟨after, ?_, warnings, modules, fun before =>
        plain (plain_addFiles before client plainResource slug)⟩
      rw [List.foldlM_cons, addNamespace_of_convert _ _ converted]
      exact ran

/-- A run over namespaces of the document skips nothing and has an output. -/
theorem generate_linkProject
    (request : Request)
    {names : List String}
    (known : ∀ name ∈ names, name ∈ ["Iface", "Uplink"])
    (selected : (select linkProject request.only).map Titled.managed =
      names.map (managingNamespace · none))
    (unknown : unknownNames linkProject request.only = [])
    (shared : sharedModules (wantedTypes linkProject request.only) = [("net", ["addr"])])
    (parts : (moduleDrafts ((names.foldl linkParts .empty).addPart "net" sharedStem)).all
      fun draft => arePlain draft.items) :
    ∃ output, generate linkProject request = some (.ok output) ∧ output.statistics.skipped = 0 := by
  obtain ⟨after, ran, warnings, modules, plain⟩ :=
    foldlM_linkProject known selected (start linkProject request.only)
  have converted := convertShared_addressEntry linkProject rfl
  have progressed : progress linkProject request.only =
      some (addShared linkProject after ("net", ["addr"])) := by
    rw [progress, ran, shared]
    rfl
  have names : ∀ draft ∈ (addShared linkProject after ("net", ["addr"])).drafts
      ++ moduleDrafts (addShared linkProject after ("net", ["addr"])).modules,
        arePlain draft.items := by
    rw [addShared, converted]
    refine List.forall_mem_append.mpr ⟨List.forall_mem_append.mpr ⟨?_, ?_⟩, ?_⟩
    · exact plain (List.forall_mem_nil _)
    · exact List.forall_mem_singleton.mpr plain_linkProject.2
    · have same : after.modules = names.foldl linkParts .empty := modules
      rw [← same] at parts
      exact List.all_eq_true.mp parts
  obtain ⟨output, generated, counted⟩ := exists_generate request progressed names
  refine ⟨output, generated, ?_⟩
  have noWarnings : (addShared linkProject after ("net", ["addr"])).statistics.warnings = [] := by
    rw [addShared, converted]
    exact warnings.trans unknown
  rw [counted, Statistics.skipped, noWarnings]
  rfl

/-- A run over the whole document skips nothing and has an output. -/
theorem generate_linkDocument :
    ∃ output, generate linkProject { source := "doc.json" } = some (.ok output) ∧
      output.statistics.skipped = 0 := by
  refine generate_linkProject { source := "doc.json" } (fun _ => id) ?_ rfl rfl (by decide +kernel)
  exact managed_assignSlugs .empty linkDocument.namespaces

/-- The client file of the first namespace imports the class of the entry without one. -/
theorem import_linkDocument :
    ∃ directory stem definitions, IsClientFile linkProject .empty directory stem definitions ∧
      .use false ["crate", "net"] (.one (linkProject.index.classOf "addr")) ∈
        clientFile linkProject directory definitions := by
  obtain ⟨first, second, all⟩ := namespaces_linkProject
  obtain ⟨attributes, converted⟩ := convert_managingNamespace linkProject rfl "Iface" none
  have selected : (⟨managingNamespace "Iface" none, first⟩ : Titled) ∈
      select linkProject .empty := by
    have everything : select linkProject .empty = linkProject.namespaces := rfl
    rw [everything, all]
    exact List.mem_cons_self
  have found : linkProject.index.get? "addr" =
      some ⟨"net", linkProject.index.classOf "addr", false⟩ := rfl
  have foreign : "net" ≠ (managingNamespace "Iface" none).outputModule := by decide +kernel
  have required : ⟨"net", linkProject.index.classOf "addr"⟩ ∈
      Import.ofDependencies linkProject.index (managingNamespace "Iface" none).outputModule
        (interfaceClient linkProject.index).dependencies :=
    mem_ofDependencies_iff.mpr ⟨"addr", List.mem_cons_self, _, found, foreign, rfl⟩
  refine ⟨_, _, _, .managed selected converted, ?_⟩
  simp only [clientFile, clientItems, List.append_assoc, List.mem_append]
  exact .inr (.inl (List.mem_map.mpr ⟨_, required, rfl⟩))

/-! ## All imports of a run -/

/-- A run over all namespaces that skips nothing writes its client files, and beside them
resource files and files that declare modules only. Whatever a client file imports from a module
of the crate is a struct that a client file in the directory of the module declares, and the
file that declares the module passes this struct on. -/
theorem imports_are_declared
    [Name.Lettering]
    (all : request.only = .empty)
    (ran : generate (.ofDocument document) request = some (.ok output))
    (complete : output.statistics.skipped = 0) :
    (∀ file ∈ output.files,
      (∃ directory stem definitions,
        IsClientFile (.ofDocument document) request.only directory stem definitions ∧
          file = rendered request ⟨.ofPart directory stem,
            clientFile (.ofDocument document) directory definitions⟩) ∨
      (∃ titled ∈ select (.ofDocument document) request.only,
        file.path =
          .ofPart titled.managed.outputModule (titled.managed.fileStem ++ "_resource")) ∨
      file.path.name = "mod.rs") ∧
    ∀ directory stem definitions,
      IsClientFile (.ofDocument document) request.only directory stem definitions →
        ∀ moduleName className,
          .use false ["crate", moduleName] (.one className) ∈
              clientFile (.ofDocument document) directory definitions →
            ∃ other declaring declarations,
              IsClientFile (.ofDocument document) request.only moduleName other declaring ∧
              DeclaresStruct (clientFile (.ofDocument document) moduleName declaring) className ∧
              rendered request ⟨.ofPart moduleName other,
                clientFile (.ofDocument document) moduleName declaring⟩ ∈ output.files ∧
              rendered request ⟨.ofPart moduleName "mod", declarations⟩ ∈ output.files ∧
              .part false other ∈ declarations ∧
              .use true [other] .everything ∈ declarations := by
  refine ⟨fun file member => cases_of_mem_files ran member, ?_⟩
  intro directory stem definitions isFile moduleName className imported
  obtain ⟨made, progressed, same⟩ := exists_progress ran
  rw [same] at complete
  obtain ⟨id, -, shared, found, rfl, rfl⟩ := exists_dependency imported
  rw [all] at progressed
  obtain ⟨other, declaring, isOther, declared⟩ :=
    declaresClass_of_complete progressed complete found
  rw [← all] at isOther
  obtain ⟨declarations, written, isPart, passedOn⟩ := exists_reexport ran isOther
  exact ⟨other, declaring, declarations, isOther, declared,
    (mem_files_iff ran).mpr ⟨_, rfl, .inl (.client isOther)⟩, written, isPart, passedOn⟩

/-- A client file of the run over the document imports a class of another module, where a file
declares it. -/
theorem imports_are_declared_linkDocument :
    ∃ output directory stem definitions other declaring,
      generate linkProject { source := "doc.json" } = some (.ok output) ∧
      output.statistics.skipped = 0 ∧
      IsClientFile linkProject .empty directory stem definitions ∧
      .use false ["crate", "net"] (.one (linkProject.index.classOf "addr")) ∈
        clientFile linkProject directory definitions ∧
      rendered { source := "doc.json" } ⟨.ofPart "net" other,
        clientFile linkProject "net" declaring⟩ ∈ output.files ∧
      DeclaresStruct (clientFile linkProject "net" declaring)
        (linkProject.index.classOf "addr") := by
  obtain ⟨output, ran, complete⟩ := generate_linkDocument
  obtain ⟨directory, stem, definitions, isFile, imported⟩ := import_linkDocument
  obtain ⟨-, declared⟩ := imports_are_declared rfl ran complete
  obtain ⟨other, declaring, -, -, inFile, written, -⟩ :=
    declared directory stem definitions isFile _ _ imported
  exact ⟨output, directory, stem, definitions, other, declaring, ran, complete, isFile, imported,
    written, inFile⟩

end Generation
end SchemaCompiler
