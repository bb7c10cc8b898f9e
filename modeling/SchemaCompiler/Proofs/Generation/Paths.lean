import Mathlib.Data.List.Nodup
import SchemaCompiler.Name.Standard
import SchemaCompiler.Proofs.Code.Writable
import SchemaCompiler.Proofs.Generation.Files
import SchemaCompiler.Proofs.Order.Table
import SchemaCompiler.Proofs.Writing.Document

/-!
# Paths of a run

The files of a run come from three producers: namespaces, shared types and the
declarations of modules. Paths of different producers and paths of one producer can
only meet where names do. The main statement tells exactly when all paths of a run
differ, and two namespaces whose names read alike show that they need not.
-/

namespace SchemaCompiler
namespace Generation

open SchemaCompiler.Client (Definitions)
open SchemaCompiler.Code (arePlain unwritable?_eq_none)
open SchemaCompiler.Order (NameSet)
open SchemaCompiler.Outcome
open SchemaCompiler.Schema

/-! ## Paths by producer -/

/-- The conversion of the namespace succeeds, so that a run writes its files. -/
def isConverted [Name.Lettering] (project : Project) (titled : Titled) : Bool :=
  match convert project titled.managed with
  | some (.ok _) => true
  | _ => false

/-- The directory of a namespace and the stem of its files. -/
def placeOf [Name.Lettering] (titled : Titled) : String × String :=
  (titled.managed.outputModule, titled.managed.fileStem)

/-- Paths of the files of a namespace in its place. -/
def placePaths (place : String × String) : List FilePath :=
  [.ofPart place.1 (place.2 ++ "_client"), .ofPart place.1 (place.2 ++ "_resource")]

/-- Places of the namespaces that a run writes files for. -/
def writtenPlaces [Name.Lettering] (project : Project) (only : NameSet) : List (String × String) :=
  ((select project only).filter (isConverted project)).map placeOf

/-- Some of the shared types of a module can be written. -/
def hasStructs [Name.Lettering] (project : Project) (shared : String × List String) : Bool :=
  !(convertShared project shared.2).1.structs.isEmpty

/-- Modules that a run writes shared types for. -/
def sharedPlaces [Name.Lettering] (project : Project) (only : NameSet) : List String :=
  ((sharedModules (wantedTypes project only)).filter (hasStructs project)).map Prod.fst

/-- A namespace adds the paths of its place if it is converted. -/
theorem paths_addNamespace
    [Name.Lettering]
    {project : Project}
    {before after : Progress}
    {titled : Titled}
    (added : addNamespace project before titled = some after) :
    after.drafts.map Draft.path = before.drafts.map Draft.path
      ++ (([titled].filter (isConverted project)).map placeOf).flatMap placePaths := by
  obtain ⟨converted, same, added⟩ := Option.bind_eq_some_iff.mp added
  cases converted with
  | error error =>
      cases added
      simp [isConverted, same, Progress.warn]
  | ok made =>
      cases added
      simp [isConverted, same, addFiles, Progress.addPart, placeOf, placePaths]

/-- Namespaces one after another add the paths of their places. -/
theorem paths_foldlM
    [Name.Lettering]
    {project : Project}
    {titles : List Titled}
    {before after : Progress}
    (added : titles.foldlM (addNamespace project) before = some after) :
    after.drafts.map Draft.path = before.drafts.map Draft.path
      ++ ((titles.filter (isConverted project)).map placeOf).flatMap placePaths := by
  induction titles generalizing before with
  | nil =>
      cases added
      simp
  | cons titled rest hypothesis =>
      rw [List.foldlM_cons] at added
      obtain ⟨next, first, others⟩ := Option.bind_eq_some_iff.mp added
      have split : (titled :: rest).filter (isConverted project) =
          [titled].filter (isConverted project) ++ rest.filter (isConverted project) := by
        rw [← List.filter_append, List.singleton_append]
      rw [hypothesis others, paths_addNamespace first, split, List.map_append,
        List.flatMap_append, List.append_assoc]

/-- The shared types of modules add one path for each module that has some. -/
theorem paths_foldl_addShared
    [Name.Lettering]
    (project : Project)
    (modules : List (String × List String))
    (before : Progress) :
    (modules.foldl (addShared project) before).drafts.map Draft.path =
      before.drafts.map Draft.path
        ++ ((modules.filter (hasStructs project)).map Prod.fst).map (.ofPart · sharedStem) := by
  induction modules generalizing before with
  | nil => simp
  | cons shared rest hypothesis =>
      rw [List.foldl_cons, hypothesis, List.filter_cons]
      have added : (addShared project before shared).drafts.map Draft.path =
          before.drafts.map Draft.path
            ++ if hasStructs project shared then [.ofPart shared.1 sharedStem] else [] := by
        dsimp only [addShared, hasStructs]
        split
        next empty => simp [empty, drafts_foldl_warn]
        next filled => simp [filled, Progress.addPart, drafts_foldl_warn]
      rw [added]
      split <;> simp

/-- Paths of the client and resource files of a run. -/
theorem paths_progress
    [Name.Lettering]
    {project : Project}
    {only : NameSet}
    {made : Progress}
    (ran : progress project only = some made) :
    made.drafts.map Draft.path =
      (writtenPlaces project only).flatMap placePaths
        ++ (sharedPlaces project only).map (.ofPart · sharedStem) := by
  obtain ⟨managed, converted, same⟩ := Option.bind_eq_some_iff.mp ran
  cases same
  rw [paths_foldl_addShared, paths_foldlM converted]
  rfl

/-- Paths of the files that declare modules. -/
theorem paths_moduleDrafts (modules : Modules) :
    (moduleDrafts modules).map Draft.path =
      modules.names.map (.ofPart · "mod")
        ++ if modules.entries.isEmpty then [] else [⟨none, "mod.rs"⟩] := by
  simp only [moduleDrafts, List.map_append, List.map_map, Order.Table.names]
  refine congrArg₂ (· ++ ·) rfl ?_
  split <;> rfl

/-- Paths of all files of a run, up to their order. -/
theorem paths_generate
    [Name.Lettering]
    {project : Project}
    {request : Request}
    {output : Output}
    (ran : generate project request = some (.ok output)) :
    ∃ modules : Modules,
      (output.files.map GeneratedFile.path).Perm
        (((writtenPlaces project request.only).flatMap placePaths
            ++ (sharedPlaces project request.only).map (.ofPart · sharedStem))
          ++ (moduleDrafts modules).map Draft.path) := by
  obtain ⟨made, progressed, laidOut⟩ := Option.bind_eq_some_iff.mp ran
  have same := Option.some.inj laidOut
  dsimp only [Generation.output] at same
  split at same
  · cases same
  cases same
  refine ⟨made.modules, ?_⟩
  rw [← paths_progress progressed, ← List.map_append, List.map_map]
  exact (List.mergeSort_perm _ _).map Draft.path

/-! ## Where paths meet -/

/-- Texts with different last letters differ, whatever stands in front of them. -/
theorem append_ne_append
    {first second : String}
    (different : first.toList.getLast? ≠ second.toList.getLast?)
    (nonempty : first ≠ "" ∧ second ≠ "")
    (left right : String) :
    left ++ first ≠ right ++ second := by
  intro same
  have behind : ∀ (front : String) {text : String}, text ≠ "" →
      (front ++ text).toList.getLast? = text.toList.getLast? := by
    intro front text given
    have given : text.toList ≠ [] := by simpa using given
    rw [String.toList_append, List.getLast?_append, List.getLast?_eq_some_getLast given]
    rfl
  apply different
  rw [← behind left nonempty.1, ← behind right nonempty.2, same]

@[simp] theorem ofPart_inj
    {directory other stem part : String} :
    FilePath.ofPart directory stem = .ofPart other part ↔ directory = other ∧ stem = part := by
  simp [FilePath.ofPart]

theorem client_ne_resource (left right : String) : left ++ "_client" ≠ right ++ "_resource" :=
  append_ne_append (by decide) (by decide) left right

/-- A namespace has two different paths. -/
theorem nodup_placePaths (place : String × String) : (placePaths place).Nodup := by
  simp [placePaths]

/-- The paths of a place belong to no other place. -/
theorem place_eq_of_mem_placePaths
    {left right : String × String}
    {path : FilePath}
    (ofLeft : path ∈ placePaths left)
    (ofRight : path ∈ placePaths right) :
    left = right := by
  simp only [placePaths, List.mem_cons, List.not_mem_nil, or_false] at ofLeft ofRight
  rcases ofLeft with rfl | rfl <;> rcases ofRight with same | same <;> rw [ofPart_inj] at same
  · exact Prod.ext same.1 (by simpa using same.2)
  · exact absurd same.2 (client_ne_resource _ _)
  · exact absurd same.2.symm (client_ne_resource _ _)
  · exact Prod.ext same.1 (by simpa using same.2)

/-- The paths of some places differ exactly if the places do. -/
theorem nodup_flatMap_placePaths_iff (places : List (String × String)) :
    (places.flatMap placePaths).Nodup ↔ places.Nodup := by
  rw [List.nodup_flatMap]
  constructor
  · rintro ⟨-, apart⟩
    refine apart.imp fun {left right} disjoint same => ?_
    subst same
    exact disjoint (List.mem_cons_self) (List.mem_cons_self)
  · intro distinct
    refine ⟨fun place _ => nodup_placePaths place, distinct.imp ?_⟩
    intro left right different path ofLeft ofRight
    exact different (place_eq_of_mem_placePaths ofLeft ofRight)

/-- A place has the path of the shared types of a module exactly if it is in this module
under their stem. -/
theorem mem_placePaths_shared_iff
    (place : String × String)
    (moduleName : String) :
    FilePath.ofPart moduleName sharedStem ∈ placePaths place ↔ place = (moduleName, "shared") := by
  have stem : sharedStem = "shared" ++ "_client" := by decide
  rw [stem]
  simp only [placePaths, List.mem_cons, List.not_mem_nil, or_false, ofPart_inj,
    client_ne_resource, and_false, String.append_left_inj]
  rw [Prod.ext_iff, eq_comm, @eq_comm _ place.2]

/-- No namespace and no shared types have the path of a declaration of modules. -/
theorem not_mem_moduleDrafts
    {path : FilePath}
    {stem : String}
    {modules : Modules}
    (named : path.name = stem ++ ".rs")
    (other : stem.toList.getLast? ≠ some 'd') :
    path ∉ (moduleDrafts modules).map Draft.path := by
  intro member
  obtain ⟨draft, declares, rfl⟩ := List.mem_map.mp member
  rw [name_of_mem_moduleDrafts declares] at named
  have declared : "mod.rs" = "mod" ++ ".rs" := by decide
  rw [declared, String.append_left_inj] at named
  exact other (named ▸ by decide)

/-- The declarations of modules have different paths. -/
theorem nodup_moduleDrafts (modules : Modules) :
    ((moduleDrafts modules).map Draft.path).Nodup := by
  have distinct := modules.nodup_names.map
    (f := (FilePath.ofPart · "mod")) fun left right same => (ofPart_inj.mp same).1
  rw [paths_moduleDrafts, List.nodup_append]
  refine ⟨distinct, ?_, ?_⟩
  · split <;> simp
  · intro path inModule root isRoot same
    split at isRoot
    · cases isRoot
    · obtain ⟨name, _, rfl⟩ := List.mem_map.mp inModule
      rw [List.mem_singleton.mp isRoot] at same
      cases same

/-- Modules with shared types are listed once. -/
theorem nodup_sharedPlaces
    [Name.Lettering]
    (project : Project)
    (only : NameSet) :
    (sharedPlaces project only).Nodup := by
  have names : ((sharedModules (wantedTypes project only)).map Prod.fst).Nodup := by
    rw [sharedModules, List.map_map]
    exact (NameSet.nodup_names _).map fun left right same => same
  exact (List.filter_sublist.map Prod.fst).nodup names

/-! ## Runs with plain names -/

/-- A namespace adds files whose names are plain if those in its definitions and in its resource
schema are; its slug does not matter. -/
theorem plain_addFiles
    [Name.Lettering]
    {project : Project}
    {before : Progress}
    {managed : Namespace}
    {definitions : Definitions}
    {schema : Resource.ResourceSchema}
    (plain : ∀ draft ∈ before.drafts, arePlain draft.items)
    (client : arePlain (clientFile project managed.outputModule definitions))
    (resource : arePlain (resourceItems schema ""))
    (slug : String) :
    ∀ draft ∈ (addFiles project before ⟨managed, slug⟩ definitions schema).drafts,
      arePlain draft.items := by
  simp only [addFiles, Progress.addPart, List.forall_mem_append, List.forall_mem_singleton]
  exact ⟨⟨plain, client⟩, resource⟩

/-- A run whose names are all plain has an output. -/
theorem exists_generate
    [Name.Lettering]
    {project : Project}
    (request : Request)
    {made : Progress}
    (ran : progress project request.only = some made)
    (plain : ∀ draft ∈ made.drafts ++ moduleDrafts made.modules, arePlain draft.items) :
    ∃ output, generate project request = some (.ok output) ∧
      output.statistics = made.statistics := by
  have written : (made.drafts ++ moduleDrafts made.modules).findSome?
      (fun draft => Code.unwritable? draft.items) = none :=
    List.findSome?_eq_none_iff.mpr fun draft member => unwritable?_eq_none (plain draft member)
  rw [generate, ran]
  dsimp only [Option.bind_eq_bind, Option.bind_some, output]
  rw [written]
  exact ⟨_, rfl, rfl⟩

/-! ## Two namespaces in one place -/

/-- Slugs do not change which namespaces there are. -/
theorem managed_assignSlugs
    (ledger : Name.SlugLedger)
    (namespaces : List Namespace) :
    (assignSlugs ledger namespaces).map Titled.managed = namespaces := by
  induction namespaces generalizing ledger with
  | nil => rfl
  | cons managed rest hypothesis =>
      rw [assignSlugs]
      split <;> simp [hypothesis]

/-- Two namespaces have one slug each. -/
theorem exists_slugs
    {titles : List Titled}
    {first second : Namespace}
    (managed : titles.map Titled.managed = [first, second]) :
    ∃ firstSlug secondSlug, titles = [⟨first, firstSlug⟩, ⟨second, secondSlug⟩] := by
  obtain ⟨left, rest, rfl, rfl, others⟩ := List.map_eq_cons_iff.mp managed
  obtain ⟨right, none, rfl, rfl, nothing⟩ := List.map_eq_cons_iff.mp others
  rw [List.map_eq_nil_iff.mp nothing]
  exact ⟨left.slug, right.slug, rfl⟩

/-- An entry without fields. -/
def vacantEntry (id : String) : Node := .object { name := id } {} []

section Vacant

variable
  {registry : Registry}
  {id : String}

/-- The client of such an entry declares its class. -/
theorem convertEntry_of_vacant
    [Name.Lettering]
    (index : Client.TypeIndex)
    (found : registry.root id = .ok (vacantEntry id)) :
    Client.convertEntry registry index id = .ok { structs := [{ name := index.classOf id }] } := by
  unfold Client.convertEntry
  rw [found, ok_bind]
  dsimp only [vacantEntry, Client.convertRoot]
  rw [Node.sorted, List.mergeSort_nil, Client.convertFields]
  rfl

/-- The resource of such an entry has no attributes. -/
theorem ofNamespace_of_vacant
    [Name.Lettering]
    {managed : Namespace}
    (usage : UsageIndex)
    (found : registry.root managed.schema = .ok (vacantEntry id)) :
    Resource.ofNamespace registry usage managed =
      some (.ok (Resource.schemaOf managed { name := id } [])) := by
  have walked : ∃ visits,
      registry.collect .expanded (.object { name := id } {} []) = .ok visits := by
    change ∃ visits, (registry.descend .expanded [] FieldPath.root 0
      (.object { name := id } {} []) >>= fun _ => _) = .ok visits
    rw [Registry.descend_object]
    simp [Node.sorted]
  obtain ⟨visits, walked⟩ := walked
  unfold Resource.ofNamespace
  rw [found, vacantEntry]
  dsimp only
  rw [walked]
  dsimp only
  rw [Node.sorted, List.mergeSort_nil, Registry.convertFields]
  rfl

end Vacant

/-- A namespace without functions of the one entry. -/
def siteNamespace (name : String) : Namespace := { name := name, schema := "site" }

/-- An entry without fields and two namespaces whose names read alike. -/
def siteDocument : Document where
  schemas := .ofList [("site", .object {} {} [])]
  namespaces := [siteNamespace "Site", siteNamespace "site"]

/-- The document made ready. -/
def siteProject : Project := .ofDocument siteDocument.normalize

/-- What the client of the entry declares. -/
def siteDefinitions : Definitions where
  structs := [{ name := siteProject.index.classOf "site" }]

/-- The resource schema of a namespace of the entry. -/
def siteSchema [Name.Lettering] (name : String) : Resource.ResourceSchema :=
  Resource.schemaOf (siteNamespace name) { name := "site" } []

/-- The resource schema of a namespace of the entry has no attributes. -/
theorem ofNamespace_site
    {managed : Namespace}
    (manages : managed.schema = "site")
    (usage : UsageIndex) :
    Resource.ofNamespace siteProject.registry usage managed =
      some (.ok (Resource.schemaOf managed { name := "site" } [])) := by
  refine ofNamespace_of_vacant usage ?_
  rw [manages]
  rfl

/-- The client of the entry declares its class. -/
theorem convertEntry_site (index : Client.TypeIndex) :
    Client.convertEntry siteProject.registry index "site" =
      .ok { structs := [{ name := index.classOf "site" }] } :=
  convertEntry_of_vacant index rfl

/-- A namespace of the entry without functions is converted, whatever other entries there are and
wherever the entry is declared. -/
theorem convert_of_vacant
    [Name.Lettering]
    {project : Project}
    (found : project.registry.root "site" = .ok (vacantEntry "site"))
    (name : String) :
    convert project (siteNamespace name) =
      some (.ok ({ structs := [{ name := project.index.classOf "site" }] }, siteSchema name)) := by
  have usage : UsageIndex.ofNamespace project.registry (siteNamespace name) =
      .ok ⟨.empty, .empty⟩ := rfl
  have client : Client.convertNamespace project.registry project.index (siteNamespace name) =
      .ok { structs := [{ name := project.index.classOf "site" }] } := by
    unfold Client.convertNamespace
    rw [siteNamespace, convertEntry_of_vacant _ found, ok_bind]
    rfl
  rw [convert, usage]
  dsimp only
  rw [ofNamespace_of_vacant _ found, client]
  rfl

theorem convert_of_site
    {project : Project}
    (registered : project.registry = siteProject.registry)
    (name : String) :
    convert project (siteNamespace name) =
      some (.ok ({ structs := [{ name := project.index.classOf "site" }] }, siteSchema name)) := by
  refine convert_of_vacant ?_ name
  rw [registered]
  rfl

theorem convert_siteNamespace (name : String) :
    convert siteProject (siteNamespace name) = some (.ok (siteDefinitions, siteSchema name)) :=
  convert_of_site rfl name

/-- The run selects both namespaces. -/
theorem select_siteProject :
    ∃ first second, select siteProject .empty =
      [⟨siteNamespace "Site", first⟩, ⟨siteNamespace "site", second⟩] :=
  exists_slugs (managed_assignSlugs .empty siteDocument.normalize.namespaces)

/-- The names in the client of the entry are plain. -/
theorem plain_siteDefinitions (directory : String) :
    arePlain (clientFile siteProject directory siteDefinitions) := by
  have independent : siteDefinitions.dependencies.names = [] := rfl
  have client : clientFile siteProject directory siteDefinitions =
      clientItems siteDefinitions [] := by
    rw [clientFile, Client.Import.ofDependencies, independent]
    simp
  rw [client]
  decide +kernel

/-- A run over the document converts both namespaces, and all its names are plain. -/
theorem progress_siteProject :
    ∃ made, progress siteProject .empty = some made ∧
      ∀ draft ∈ made.drafts ++ moduleDrafts made.modules, arePlain draft.items := by
  obtain ⟨first, second, selected⟩ := select_siteProject
  have shared : sharedModules (wantedTypes siteProject .empty) = [] := rfl
  have converted := fun before name slug =>
    addNamespace_of_convert before slug (convert_siteNamespace name)
  -- slugs do not matter to modules, so that these are the same as with empty ones
  have modules : ∀ draft ∈ moduleDrafts (addFiles siteProject
      (addFiles siteProject {} ⟨siteNamespace "Site", ""⟩ siteDefinitions (siteSchema "Site"))
      ⟨siteNamespace "site", ""⟩ siteDefinitions (siteSchema "site")).modules,
        arePlain draft.items :=
    List.all_eq_true.mp (by decide +kernel)
  unfold progress
  rw [selected, shared, List.foldlM_cons, converted, Option.bind_eq_bind, Option.bind_some,
    List.foldlM_cons, converted, Option.bind_eq_bind, Option.bind_some]
  refine ⟨_, rfl, List.forall_mem_append.mpr ⟨?_, modules⟩⟩
  refine plain_addFiles (plain_addFiles ?_ ?_ ?_ first) ?_ ?_ second
  · exact List.forall_mem_nil _
  · exact plain_siteDefinitions _
  · decide +kernel
  · exact plain_siteDefinitions _
  · decide +kernel

/-- A run over the document succeeds. -/
theorem generate_siteProject :
    ∃ output, generate siteProject { source := "doc.json" } = some (.ok output) := by
  obtain ⟨made, ran, plain⟩ := progress_siteProject
  obtain ⟨output, ran, -⟩ := exists_generate { source := "doc.json" } ran plain
  exact ⟨output, ran⟩

theorem writtenPlaces_siteProject :
    writtenPlaces siteProject .empty = [("site", "site"), ("site", "site")] := by
  obtain ⟨first, second, selected⟩ := select_siteProject
  have alike : Name.moduleName "Site" = "site" ∧ Name.moduleName "site" = "site" := by
    decide +kernel
  have places : ∀ name slug, placeOf ⟨siteNamespace name, slug⟩ =
      (Name.moduleName name, Name.moduleName name) := fun _ _ => rfl
  simp [writtenPlaces, selected, isConverted, convert_siteNamespace, places, alike]

/-! ## All paths of a run -/

/-- No two files of a run have the same path: the converted namespaces have different
places, and none is where the shared types of a module are. -/
def PathsApart [Name.Lettering] (project : Project) (only : NameSet) : Prop :=
  (writtenPlaces project only).Nodup ∧
    ∀ moduleName ∈ sharedPlaces project only,
      (moduleName, "shared") ∉ writtenPlaces project only

/-- The paths of the files of a run differ exactly if the converted namespaces have
different modules or file stems and none with the stem `shared` has the module of shared
types that are written. -/
theorem nodup_paths_iff
    [Name.Lettering]
    {document : Document}
    {request : Request}
    {output : Output}
    (ran : generate (.ofDocument document) request = some (.ok output)) :
    (output.files.map GeneratedFile.path).Nodup ↔
      PathsApart (.ofDocument document) request.only := by
  obtain ⟨modules, permuted⟩ := paths_generate ran
  rw [permuted.nodup_iff, List.nodup_append, List.nodup_append, nodup_flatMap_placePaths_iff]
  have shared := (nodup_sharedPlaces (.ofDocument document) request.only).map
    (f := (FilePath.ofPart · sharedStem)) fun left right same => (ofPart_inj.mp same).1
  constructor
  · rintro ⟨⟨places, -, apart⟩, -, -⟩
    refine ⟨places, fun moduleName module written => ?_⟩
    refine apart _ (List.mem_flatMap.mpr ⟨_, written, ?_⟩) _ (List.mem_map_of_mem module) rfl
    exact (mem_placePaths_shared_iff _ moduleName).mpr rfl
  · rintro ⟨places, apart⟩
    refine ⟨⟨places, shared, ?_⟩, nodup_moduleDrafts modules, ?_⟩
    · rintro path inPlace other isShared rfl
      obtain ⟨place, written, inPlace⟩ := List.mem_flatMap.mp inPlace
      obtain ⟨moduleName, module, rfl⟩ := List.mem_map.mp isShared
      rw [mem_placePaths_shared_iff] at inPlace
      exact apart moduleName module (inPlace ▸ written)
    · rintro path written other declares rfl
      rcases List.mem_append.mp written with inPlace | isShared
      · obtain ⟨place, -, inPlace⟩ := List.mem_flatMap.mp inPlace
        simp only [placePaths, List.mem_cons, List.not_mem_nil, or_false] at inPlace
        rcases inPlace with rfl | rfl
        · exact not_mem_moduleDrafts rfl (by simp [String.toList_append]) declares
        · exact not_mem_moduleDrafts rfl (by simp [String.toList_append]) declares
      · obtain ⟨moduleName, -, rfl⟩ := List.mem_map.mp isShared
        exact not_mem_moduleDrafts rfl (by decide) declares

theorem nodup_paths_siteDocument :
    ∃ output, generate siteProject { source := "doc.json" } = some (.ok output) ∧
      ((output.files.map GeneratedFile.path).Nodup ↔ PathsApart siteProject .empty) := by
  obtain ⟨output, ran⟩ := generate_siteProject
  exact ⟨output, ran, nodup_paths_iff ran⟩

/-- Not all files of a run have different paths: both namespaces of the entry have their
files in the same place. -/
theorem not_nodup_paths_siteDocument :
    ¬∀ (document : Document) (request : Request) (output : Output),
      document.Loaded →
      document.normalize.validate = .ok () →
      generate (.ofDocument document.normalize) request = some (.ok output) →
      (output.files.map GeneratedFile.path).Nodup := by
  intro apart
  obtain ⟨output, ran⟩ := generate_siteProject
  have node : Node.Sound (.object {} {} []) :=
    Node.sound_object_iff.mpr ⟨⟨by decide, by decide, by decide, by decide⟩, List.forall_mem_nil _⟩
  have functions : ∀ name, (siteNamespace name).All Function.Sound := fun name =>
    Namespace.all_iff.mpr (List.forall_mem_nil _)
  have sound : siteDocument.Sound :=
    ⟨List.forall_mem_singleton.mpr node, by simp [siteDocument, functions]⟩
  have loaded : siteDocument.Loaded := .read (Reading.readDocument_writeDocument .text sound)
  have valid : siteDocument.normalize.validate = .ok () := rfl
  have distinct := apart siteDocument _ output loaded valid ran
  obtain ⟨modules, permuted⟩ := paths_generate ran
  rw [permuted.nodup_iff, List.nodup_append, List.nodup_append,
    nodup_flatMap_placePaths_iff] at distinct
  have places : [("site", "site"), ("site", "site")].Nodup :=
    writtenPlaces_siteProject ▸ distinct.1.1
  exact absurd places (by decide)

end Generation
end SchemaCompiler
