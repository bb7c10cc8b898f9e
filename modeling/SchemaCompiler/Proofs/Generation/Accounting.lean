import SchemaCompiler.Name.Standard
import SchemaCompiler.Proofs.Generation.FileCounts
import SchemaCompiler.Proofs.Generation.Selection

/-!
# Accounts of a run

What a run was asked for comes back as files or as warnings, and its counts are those of what is
in the files. Each namespace and each shared type fails for itself: the others do not change.
-/

namespace SchemaCompiler
namespace Generation

open SchemaCompiler.Client (Definitions SharedType)
open SchemaCompiler.Code (arePlain)
open SchemaCompiler.Order (NameSet)
open SchemaCompiler.Outcome
open SchemaCompiler.Resource (ResourceSchema)
open SchemaCompiler.Schema

/-! ## Namespaces -/

/-- What a selected namespace adds to a run: its client file, its resource file and one to the
count of namespaces, or else one warning with its name. -/
inductive Settled [Name.Lettering] (project : Project) (titled : Titled) : Tally → Prop
  | converted {definitions : Definitions} {schema : ResourceSchema} {tally : Tally} :
      convert project titled.managed = some (.ok (definitions, schema)) →
      tally.drafts = [
        ⟨.ofPart titled.managed.outputModule (titled.managed.fileStem ++ "_client"),
          clientFile project titled.managed.outputModule definitions⟩,
        ⟨.ofPart titled.managed.outputModule (titled.managed.fileStem ++ "_resource"),
          resourceItems schema titled.slug⟩] →
      tally.warnings = [] →
      tally.namespaces = 1 →
      tally.functions = titled.managed.functions.length →
      Settled project titled tally
  | failed {error : SchemaError} {message : String} :
      convert project titled.managed = some (.error error) →
      Settled project titled { warnings := [.namespaceFailed titled.managed.name message] }

section Namespaces

variable {project : Project}

/-- A namespace is settled if its conversion ends. -/
theorem settled_namespaceTally
    [Name.Lettering]
    {titled : Titled}
    (ends : ∃ outcome, convert project titled.managed = some outcome) :
    Settled project titled (namespaceTally project titled) := by
  obtain ⟨outcome, same⟩ := ends
  cases outcome with
  | ok made =>
      have functions := Client.length_inputs_convertNamespace (convertNamespace_of_convert same)
      rw [namespaceTally, same]
      exact .converted same rfl rfl rfl functions
  | error error =>
      rw [namespaceTally, same]
      exact .failed same

/-- What is counted for settled namespaces is counted for those that are converted. -/
theorem Settled.counts
    [Name.Lettering]
    {titled : Titled}
    {tally : Tally}
    (settled : Settled project titled tally) :
    tally.namespaces = (if isConverted project titled then 1 else 0) ∧
      tally.functions =
        if isConverted project titled then titled.managed.functions.length else 0 := by
  cases settled with
  | converted same _ _ namespaces functions => simp [isConverted, same, namespaces, functions]
  | failed same => simp [isConverted, same]

/-- The run selects namespaces of the document by their names. -/
theorem managed_select
    [Name.Lettering]
    (document : Document)
    (only : NameSet) :
    (select (.ofDocument document) only).map Titled.managed =
      document.namespaces.filter fun managed => only.isEmpty || only.contains managed.name := by
  have all : (Project.ofDocument document).namespaces.map Titled.managed = document.namespaces :=
    managed_assignSlugs .empty document.namespaces
  unfold select
  rw [← all, List.filter_map]
  split
  next empty => simp [empty]
  next chosen => simp [chosen, Function.comp_def]

end Namespaces

/-! ## Shared types -/

/-- The definitions of a shared type, if it can be converted. -/
def definitions? [Name.Lettering] (project : Project) (id : String) : Option Definitions :=
  (Client.convertEntry project.registry project.index id).toOption

/-- The warning about a shared type, if it fails. -/
def failure? [Name.Lettering] (project : Project) (id : String) : Option Warning :=
  match Client.convertEntry project.registry project.index id with
  | .ok _ => none
  | .error error => some (.sharedTypeFailed id error.message)

/-- The shared types that can be converted are declared one after another, and the others have a
warning each. -/
theorem convertShared_eq [Name.Lettering] (project : Project) (ids : List String) :
    convertShared project ids =
      ((ids.filterMap (definitions? project)).foldr (· ++ ·) .empty,
        ids.filterMap (failure? project)) := by
  induction ids with
  | nil => rfl
  | cons id rest hypothesis =>
      rw [convertShared, hypothesis]
      cases converted : Client.convertEntry project.registry project.index id with
      | ok definitions => simp [definitions?, failure?, converted]
      | error error => simp [definitions?, failure?, converted]

/-- What becomes of a shared type: its structs are in the file of its module and no warning has
its id, or a warning has its id and the reason. -/
inductive Shared
    [Name.Lettering]
    (project : Project)
    (request : Request)
    (output : Output)
    (id : String) : Prop
  | declared {shared : SharedType} {ids : List String} {definitions : Definitions} :
      (id, shared) ∈ wantedTypes project request.only →
      (shared.moduleName, ids) ∈ sharedModules (wantedTypes project request.only) →
      rendered request ⟨.ofPart shared.moduleName sharedStem,
        clientFile project shared.moduleName (convertShared project ids).1⟩ ∈ output.files →
      definitions? project id = some definitions →
      definitions.structs ⊆ (convertShared project ids).1.structs →
      (∃ struct ∈ definitions.structs, struct.name = shared.className) →
      (∀ message, .sharedTypeFailed id message ∉ output.statistics.warnings) →
      Shared project request output id
  | failed {message : String} :
      definitions? project id = none →
      .sharedTypeFailed id message ∈ output.statistics.warnings →
      Shared project request output id

section SharedTypes

variable
  {project : Project}
  {request : Request}
  {output : Output}

/-- A warning about a shared type has the id of one that fails. -/
theorem failure_of_mem_warnings
    [Name.Lettering]
    {id message : String}
    {made : Progress}
    (progressed : progress project request.only = some made)
    (warned : .sharedTypeFailed id message ∈ made.statistics.warnings) :
    ∃ error, Client.convertEntry project.registry project.index id = .error error := by
  rcases (mem_warnings_iff progressed).mp warned with unknown | ⟨titled, -, error, -, same⟩ |
    ⟨other, shared, -, error, fails, same⟩
  · obtain ⟨name, -, same⟩ := List.mem_map.mp unknown
    cases same
  · cases same
  · cases same
    exact ⟨error, fails⟩

/-- Every wanted shared type is declared or has a warning. -/
theorem shared_of_wanted
    [Name.Lettering]
    (ran : generate project request = some (.ok output))
    {id : String}
    {shared : SharedType}
    (wanted : (id, shared) ∈ wantedTypes project request.only) :
    Shared project request output id := by
  obtain ⟨made, progressed, statistics⟩ := exists_progress ran
  cases converted : Client.convertEntry project.registry project.index id with
  | ok definitions =>
      obtain ⟨ids, isModule, member, filled⟩ := exists_shared_of_convertEntry wanted converted
      have found := (mem_wantedTypes_iff.mp wanted).1
      refine .declared wanted isModule ?_ (by rw [definitions?, converted]; rfl)
        (subset_convertShared member converted) ?_ fun message warned => ?_
      · exact (mem_files_iff ran).mpr ⟨_, rfl, .inl (.client (.shared isModule filled))⟩
      · rw [← classOf_eq found]
        exact exists_struct_of_convertEntry converted
      · rw [statistics] at warned
        obtain ⟨error, fails⟩ := failure_of_mem_warnings progressed warned
        cases converted.symm.trans fails
  | error error =>
      have warned := (mem_warnings_iff progressed).mpr
        (.inr (.inr ⟨id, shared, wanted, error, converted, rfl⟩))
      exact .failed (by rw [definitions?, converted]; rfl) (statistics ▸ warned)

/-- The unknown names are those that a run was asked for and that no namespace has. -/
theorem unknownNamespace_mem_iff
    [Name.Lettering]
    {document : Document}
    {name : String}
    {made : Progress}
    (progressed : progress (.ofDocument document) request.only = some made) :
    .unknownNamespace name ∈ made.statistics.warnings ↔
      name ∈ request.only.names ∧ ∀ managed ∈ document.namespaces, managed.name ≠ name := by
  have all : (Project.ofDocument document).namespaces.map Titled.managed = document.namespaces :=
    managed_assignSlugs .empty document.namespaces
  have others : ¬((∃ titled ∈ select (.ofDocument document) request.only,
      IsFailureOf (.ofDocument document) titled (.unknownNamespace name)) ∨
        ∃ id shared, (id, shared) ∈ wantedTypes (.ofDocument document) request.only ∧
          IsSharedFailure (.ofDocument document) id (.unknownNamespace name)) := by
    rintro (⟨titled, -, error, -, same⟩ | ⟨id, shared, -, error, -, same⟩) <;> cases same
  rw [mem_warnings_iff progressed, or_iff_left others, ← all]
  simp [unknownNames]

end SharedTypes

/-! ## Parts of a run -/

section Parts

variable
  {project : Project}
  {only : NameSet}
  {made : Progress}

/-- The files of a run are what it has made and the files that declare modules. -/
theorem files_perm_of_progress
    [Name.Lettering]
    {request : Request}
    {output : Output}
    (ran : generate project request = some (.ok output))
    (progressed : progress project request.only = some made) :
    output.files.Perm ((made.drafts ++ moduleDrafts made.modules).map (rendered request)) := by
  rw [generate, progressed] at ran
  have same := Option.some.inj ran
  dsimp only [Generation.output] at same
  split at same
  · cases same
  · cases same
    exact (List.mergeSort_perm _ _).map (rendered request)

/-- Shared types are no namespaces and have no functions. -/
theorem counts_sharedTally [Name.Lettering] (project : Project) (shared : String × List String) :
    (sharedTally project shared).namespaces = 0 ∧ (sharedTally project shared).functions = 0 := by
  have none : (convertShared project shared.2).1.inputs = [] := by
    refine @good_convertShared _ project (fun definitions => definitions.inputs = []) shared.2
      ⟨rfl, fun first second => ?_⟩ fun _ _ _ => Client.inputs_convertEntry
    rw [Definitions.inputs_append, first, second, List.append_nil]
  dsimp only [sharedTally]
  split
  · exact ⟨rfl, rfl⟩
  · exact ⟨rfl, by rw [none, List.length_nil]⟩

theorem warnings_sharedTally [Name.Lettering] (project : Project) (shared : String × List String) :
    (sharedTally project shared).warnings = shared.2.filterMap (failure? project) := by
  have same : (convertShared project shared.2).2 = shared.2.filterMap (failure? project) :=
    congrArg Prod.snd (convertShared_eq project shared.2)
  dsimp only [sharedTally]
  split <;> exact same

theorem drafts_of_progress
    [Name.Lettering]
    (ran : progress project only = some made) :
    made.drafts =
      (select project only).flatMap (fun titled => (namespaceTally project titled).drafts)
        ++ (sharedModules (wantedTypes project only)).flatMap
          (fun shared => (sharedTally project shared).drafts) := by
  have drafts : made.drafts = _ := congrArg Tally.drafts (tally_of_progress ran)
  simpa only [Tally.append_eq, Tally.append, Tally.drafts_sum, List.flatMap_map,
    List.nil_append] using drafts

theorem warnings_of_progress
    [Name.Lettering]
    (ran : progress project only = some made) :
    made.statistics.warnings =
      unknownNames project only
        ++ (select project only).flatMap (fun titled => (namespaceTally project titled).warnings)
        ++ (sharedModules (wantedTypes project only)).flatMap
          (fun shared => shared.2.filterMap (failure? project)) := by
  have warnings : made.statistics.warnings = _ :=
    congrArg Tally.warnings (tally_of_progress ran)
  simpa only [Tally.append_eq, Tally.append, Tally.warnings_sum, List.flatMap_map,
    warnings_sharedTally] using warnings

/-- Namespaces and functions are counted where a namespace is converted. -/
theorem counts_of_progress
    [Name.Lettering]
    (ran : progress project only = some made) :
    made.statistics.namespaces = ((select project only).filter (isConverted project)).length ∧
      made.statistics.functions = total (fun titled => titled.managed.functions.length)
        ((select project only).filter (isConverted project)) := by
  have each := fun titled selected =>
    (settled_namespaceTally (exists_convert ran titled selected)).counts
  constructor
  · have namespaces : made.statistics.namespaces = _ :=
      congrArg Tally.namespaces (tally_of_progress ran)
    simp only [Tally.append_eq, Tally.append, Tally.namespaces_sum, total_map] at namespaces
    rw [namespaces, total_eq_total_filter fun titled selected => (each titled selected).1,
      total_one, total_eq_zero fun shared _ => (counts_sharedTally project shared).1,
      Nat.zero_add, Nat.add_zero]
  · have functions : made.statistics.functions = _ :=
      congrArg Tally.functions (tally_of_progress ran)
    simp only [Tally.append_eq, Tally.append, Tally.functions_sum, total_map] at functions
    rw [functions, total_eq_total_filter fun titled selected => (each titled selected).2,
      total_eq_zero fun shared _ => (counts_sharedTally project shared).2, Nat.zero_add,
      Nat.add_zero]

end Parts

/-! ## Runs -/

/-- The files, warnings and counts of a run over a document are those of what it was asked
for. -/
structure Accounted
    [Name.Lettering]
    (document : Document)
    (project : Project)
    (request : Request)
    (output : Output)
    (drafts : List Draft) : Prop where
  /-- The output has the drafts as files, and no others. -/
  files : output.files.Perm (drafts.map (rendered request))
  /-- The drafts are those of the selected namespaces, of the shared types and of modules. -/
  parts : ∃ modules,
    drafts =
      (select project request.only).flatMap (fun titled => (namespaceTally project titled).drafts)
        ++ (sharedModules (wantedTypes project request.only)).flatMap
          (fun shared => (sharedTally project shared).drafts)
        ++ moduleDrafts modules
  warnings : output.statistics.warnings =
    unknownNames project request.only
      ++ (select project request.only).flatMap
        (fun titled => (namespaceTally project titled).warnings)
      ++ (sharedModules (wantedTypes project request.only)).flatMap
        (fun shared => shared.2.filterMap (failure? project))
  selected : (select project request.only).map Titled.managed =
    document.namespaces.filter fun managed =>
      request.only.isEmpty || request.only.contains managed.name
  settled : ∀ titled ∈ select project request.only,
    Settled project titled (namespaceTally project titled)
  namespaces : output.statistics.namespaces =
    ((select project request.only).filter (isConverted project)).length
  functions : output.statistics.functions =
    total (fun titled => titled.managed.functions.length)
      ((select project request.only).filter (isConverted project))
  attributes : output.statistics.attributes = total Draft.attributes drafts
  /-- A field with a secret has two key accessors. -/
  encryptedFields : 2 * output.statistics.encryptedFields = total Draft.accessors drafts
  /-- An object entry that no namespace manages is shared if the run keeps it. -/
  shared : ∀ id entry, project.registry.get? id = some entry →
    entry.isObject = true →
    (∀ managed ∈ document.namespaces, managed.schema ≠ id) →
    Keeps project request.only id →
    Shared project request output id
  /-- The files of shared types have nothing of those that fail. -/
  isolated : ∀ ids, (convertShared project ids).1 =
    (ids.filterMap (definitions? project)).foldr (· ++ ·) .empty
  unknown : ∀ name, .unknownNamespace name ∈ output.statistics.warnings ↔
    name ∈ request.only.names ∧ ∀ managed ∈ document.namespaces, managed.name ≠ name

/-- A run that ends with an output accounts for all that it was asked for. -/
theorem run_is_accounted
    [Name.Lettering]
    {document : Document}
    {request : Request}
    {output : Output}
    (ran : generate (.ofDocument document) request = some (.ok output)) :
    ∃ drafts, Accounted document (.ofDocument document) request output drafts := by
  obtain ⟨made, progressed, statistics⟩ := exists_progress ran
  obtain ⟨namespaces, functions⟩ := counts_of_progress progressed
  have exact := exact_of_progress (.ofDocument document) progressed
  have declares : ∀ draft ∈ moduleDrafts made.modules, draft.accessors = 0 ∧ draft.attributes = 0 :=
    fun _ => counts_moduleDrafts
  refine ⟨made.drafts ++ moduleDrafts made.modules, ?_⟩
  constructor
  case files => exact files_perm_of_progress ran progressed
  case parts => exact ⟨made.modules, by rw [drafts_of_progress progressed]⟩
  case warnings => rw [statistics, warnings_of_progress progressed]
  case selected => exact managed_select document request.only
  case settled =>
    exact fun titled selected => settled_namespaceTally (exists_convert progressed titled selected)
  case namespaces => rw [statistics, namespaces]
  case functions => rw [statistics, functions]
  case attributes =>
    rw [statistics, total_append, total_eq_zero fun draft member => (declares draft member).2]
    exact exact.attributes
  case encryptedFields =>
    rw [statistics, total_append, total_eq_zero fun draft member => (declares draft member).1]
    exact exact.accessors
  case shared =>
    intro id entry registered isObject unmanaged kept
    obtain ⟨shared, found⟩ := exists_shared_of_object document.namespaces registered isObject
    obtain ⟨_, _, placed⟩ := get?_build found
    exact shared_of_wanted ran (mem_wantedTypes_iff.mpr
      ⟨found, not_isManaged placed unmanaged, kept⟩)
  case isolated => exact fun ids => congrArg Prod.fst (convertShared_eq _ ids)
  case unknown =>
    intro name
    rw [statistics]
    exact unknownNamespace_mem_iff progressed

/-! ## A run that makes a part of what it was asked for -/

/-- An entry with a field that stands for nothing. -/
def tornEntry : Node :=
  .object { name := "torn" } {} [.scalar { name := "part", reference := some "lost" } (.bool {})]

/-- A namespace whose entry is nowhere. -/
def lostNamespace : Namespace := { name := "Lost", schema := "lost" }

/-- A namespace that can be converted and one that cannot, beside two entries of which one can be
converted. -/
def partialDocument : Document where
  schemas := .ofList [
    ("card", vacantEntry "card"), ("site", vacantEntry "site"), ("torn", tornEntry)]
  namespaces := [siteNamespace "Site", lostNamespace]

/-- The document made ready. -/
def partialProject : Project := .ofDocument partialDocument

theorem convertEntry_tornEntry :
    ∃ error, Client.convertEntry partialProject.registry partialProject.index "torn" =
      .error error := by
  have found : partialProject.registry.root "torn" = .ok tornEntry := rfl
  unfold Client.convertEntry
  rw [found, ok_bind]
  dsimp only [tornEntry, Client.convertRoot]
  rw [Node.sorted, List.mergeSort_singleton, Client.convertFields]
  exact ⟨_, rfl⟩

theorem convertShared_partialProject :
    ∃ message, convertShared partialProject ["card", "torn"] =
      ({ structs := [{ name := partialProject.index.classOf "card" }] },
        [.sharedTypeFailed "torn" message]) := by
  obtain ⟨error, torn⟩ := convertEntry_tornEntry
  have card := convertEntry_of_vacant partialProject.index
    (rfl : partialProject.registry.root "card" = _)
  refine ⟨error.message, ?_⟩
  rw [convertShared, convertShared, card, torn]
  rfl

theorem convert_lostNamespace :
    ∃ error, convert partialProject lostNamespace = some (.error error) := ⟨_, rfl⟩

/-- The client of the namespace whose entry is there. -/
def partialClient : Definitions where
  structs := [{ name := partialProject.index.classOf "site" }]

theorem convert_partialProject :
    convert partialProject (siteNamespace "Site") = some (.ok (partialClient, siteSchema "Site")) :=
  convert_of_vacant rfl "Site"

/-- The names in the files of the run are plain. -/
theorem plain_partialProject :
    arePlain (clientFile partialProject (siteNamespace "Site").outputModule partialClient) ∧
      arePlain (clientFile partialProject "shared"
        { structs := [{ name := partialProject.index.classOf "card" }] }) ∧
      arePlain (resourceItems (siteSchema "Site") "") := by
  decide +kernel

/-- What the run has made when it is through with the namespaces. -/
def partialManaged (slug : String) (error : SchemaError) : Progress :=
  (addFiles partialProject (start partialProject .empty) ⟨siteNamespace "Site", slug⟩
    partialClient (siteSchema "Site")).warn (failureOf lostNamespace error)

theorem progress_partialProject :
    ∃ slug error, progress partialProject .empty =
      some (addShared partialProject (partialManaged slug error) ("shared", ["card", "torn"])) := by
  obtain ⟨first, second, selected⟩ :=
    exists_slugs (managed_assignSlugs .empty partialDocument.namespaces)
  obtain ⟨error, lost⟩ := convert_lostNamespace
  have everything : select partialProject .empty =
      [⟨siteNamespace "Site", first⟩, ⟨lostNamespace, second⟩] := selected
  have shared : sharedModules (wantedTypes partialProject .empty) =
      [("shared", ["card", "torn"])] := rfl
  have fails : ∀ before, addNamespace partialProject before ⟨lostNamespace, second⟩ =
      some (before.warn (failureOf lostNamespace error)) := by
    intro before
    rw [addNamespace, lost]
    rfl
  refine ⟨first, error, ?_⟩
  rw [progress, everything, shared, List.foldlM_cons,
    addNamespace_of_convert _ _ convert_partialProject, Option.bind_eq_bind, Option.bind_some,
    List.foldlM_cons, fails]
  rfl

/-- A run over the document has an output with two warnings. -/
theorem generate_partialProject :
    ∃ output, generate partialProject { source := "doc.json" } = some (.ok output) ∧
      output.statistics.namespaces = 1 ∧
      ∃ lost torn, output.statistics.warnings =
        [.namespaceFailed "Lost" lost, .sharedTypeFailed "torn" torn] := by
  obtain ⟨slug, error, progressed⟩ := progress_partialProject
  obtain ⟨torn, types⟩ := convertShared_partialProject
  obtain ⟨client, sharedClient, resource⟩ := plain_partialProject
  -- slugs do not matter to modules, so that these are the same as with an empty one
  have modules : ∀ draft ∈ moduleDrafts ((addFiles partialProject {}
      ⟨siteNamespace "Site", ""⟩ partialClient (siteSchema "Site")).modules.addPart "shared"
        sharedStem), arePlain draft.items :=
    List.all_eq_true.mp (by decide +kernel)
  rw [addShared, types] at progressed
  obtain ⟨output, ran, counted⟩ := exists_generate { source := "doc.json" } progressed <| by
    refine List.forall_mem_append.mpr ⟨List.forall_mem_append.mpr ⟨?_, ?_⟩, modules⟩
    · exact plain_addFiles (List.forall_mem_nil _) client resource slug
    · exact List.forall_mem_singleton.mpr sharedClient
  exact ⟨output, ran, by rw [counted]; rfl, _, torn, by rw [counted]; rfl⟩

/-- The namespace whose entry is there has its files, and of the shared types only the first has
a struct. -/
theorem run_is_accounted_partialDocument :
    ∃ output drafts, generate partialProject { source := "doc.json" } = some (.ok output) ∧
      output.statistics.namespaces = 1 ∧
      (∃ lost torn, output.statistics.warnings =
        [.namespaceFailed "Lost" lost, .sharedTypeFailed "torn" torn]) ∧
      Accounted partialDocument partialProject { source := "doc.json" } output drafts := by
  obtain ⟨output, ran, namespaces, warnings⟩ := generate_partialProject
  obtain ⟨drafts, accounted⟩ := run_is_accounted ran
  exact ⟨output, drafts, ran, namespaces, warnings, accounted⟩

end Generation
end SchemaCompiler
