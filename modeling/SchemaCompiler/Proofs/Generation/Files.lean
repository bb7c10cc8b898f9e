import SchemaCompiler.Name.Standard
import SchemaCompiler.Proofs.Generation.Scope
import SchemaCompiler.Proofs.Registry.ExpandedWalk

/-!
# Files of a run

A run writes a client file and a resource file for every selected namespace that can be
converted, a client file for the shared types of every module that has some, and the
files that declare the modules.
-/

namespace SchemaCompiler
namespace Generation

open SchemaCompiler.Client (Definitions TypeIndex)
open SchemaCompiler.Order (NameSet)
open SchemaCompiler.Outcome
open SchemaCompiler.Schema

/-- The client files of a run with the definitions that each is made of. -/
inductive IsClientFile
    [Name.Lettering]
    (project : Project)
    (only : NameSet) : (directory stem : String) → Definitions → Prop
  /-- Of a selected namespace. -/
  | managed {titled : Titled} {definitions : Definitions} {schema : Resource.ResourceSchema} :
      titled ∈ select project only →
      convert project titled.managed = some (.ok (definitions, schema)) →
      IsClientFile project only titled.managed.outputModule (titled.managed.fileStem ++ "_client")
        definitions
  /-- Of the shared types of a module. -/
  | shared {name : String} {ids : List String} :
      (name, ids) ∈ sharedModules (wantedTypes project only) →
      (convertShared project ids).1.structs.isEmpty = false →
      IsClientFile project only name sharedStem (convertShared project ids).1

/-- The client and resource files of a run before their text is laid out. -/
inductive Written [Name.Lettering] (project : Project) (only : NameSet) : Draft → Prop
  | client {directory stem : String} {definitions : Definitions} :
      IsClientFile project only directory stem definitions →
      Written project only ⟨.ofPart directory stem, clientFile project directory definitions⟩
  | resource {titled : Titled} {definitions : Definitions} {schema : Resource.ResourceSchema} :
      titled ∈ select project only →
      convert project titled.managed = some (.ok (definitions, schema)) →
      Written project only
        ⟨.ofPart titled.managed.outputModule (titled.managed.fileStem ++ "_resource"),
          resourceItems schema titled.slug⟩

/-- The files of one namespace. -/
def IsDraftOf [Name.Lettering] (project : Project) (titled : Titled) (draft : Draft) : Prop :=
  ∃ definitions schema, convert project titled.managed = some (.ok (definitions, schema)) ∧
    (draft = ⟨.ofPart titled.managed.outputModule (titled.managed.fileStem ++ "_client"),
        clientFile project titled.managed.outputModule definitions⟩ ∨
      draft = ⟨.ofPart titled.managed.outputModule (titled.managed.fileStem ++ "_resource"),
        resourceItems schema titled.slug⟩)

/-- The file of the shared types of one module. -/
def IsSharedDraftOf
    [Name.Lettering]
    (project : Project)
    (shared : String × List String)
    (draft : Draft) : Prop :=
  (convertShared project shared.2).1.structs.isEmpty = false ∧
    draft = ⟨.ofPart shared.1 sharedStem,
      clientFile project shared.1 (convertShared project shared.2).1⟩

/-- What each step adds to a list, steps one after another add together. -/
theorem mem_foldlM_iff
    {State Item Value : Type}
    (step : State → Item → Option State)
    (view : State → List Value)
    (Adds : Item → Value → Prop)
    (one : ∀ {before after item}, step before item = some after → ∀ value,
      value ∈ view after ↔ value ∈ view before ∨ Adds item value)
    {items : List Item}
    {before after : State}
    (ran : items.foldlM step before = some after)
    (value : Value) :
    value ∈ view after ↔ value ∈ view before ∨ ∃ item ∈ items, Adds item value := by
  induction items generalizing before with
  | nil =>
      cases ran
      simp
  | cons item rest hypothesis =>
      rw [List.foldlM_cons] at ran
      obtain ⟨next, first, rest⟩ := Option.bind_eq_some_iff.mp ran
      rw [hypothesis rest, one first]
      simp [or_assoc]

/-- So do steps that cannot fail. -/
theorem mem_foldl_iff
    {State Item Value : Type}
    (step : State → Item → State)
    (view : State → List Value)
    (Adds : Item → Value → Prop)
    (one : ∀ before item value,
      value ∈ view (step before item) ↔ value ∈ view before ∨ Adds item value)
    (items : List Item)
    (before : State)
    (value : Value) :
    value ∈ view (items.foldl step before) ↔
      value ∈ view before ∨ ∃ item ∈ items, Adds item value := by
  induction items generalizing before with
  | nil => simp
  | cons item rest hypothesis =>
      rw [List.foldl_cons, hypothesis, one]
      simp [or_assoc]

/-- A namespace that can be converted adds its files. -/
theorem addNamespace_of_convert
    [Name.Lettering]
    {project : Project}
    {managed : Namespace}
    {definitions : Definitions}
    {schema : Resource.ResourceSchema}
    (before : Progress)
    (slug : String)
    (converted : convert project managed = some (.ok (definitions, schema))) :
    addNamespace project before ⟨managed, slug⟩ =
      some (addFiles project before ⟨managed, slug⟩ definitions schema) := by
  simp [addNamespace, converted]

/-- A namespace adds its own files. -/
theorem mem_drafts_addNamespace
    [Name.Lettering]
    {project : Project}
    {before after : Progress}
    {titled : Titled}
    {draft : Draft}
    (added : addNamespace project before titled = some after) :
    draft ∈ after.drafts ↔ draft ∈ before.drafts ∨ IsDraftOf project titled draft := by
  obtain ⟨converted, same, added⟩ := Option.bind_eq_some_iff.mp added
  cases converted with
  | error error =>
      cases added
      simp [IsDraftOf, same, Progress.warn]
  | ok made =>
      obtain ⟨definitions, schema⟩ := made
      cases added
      simp only [addFiles, Progress.addPart, List.mem_append, List.mem_singleton, or_assoc]
      refine or_congr_right ⟨fun place => ⟨definitions, schema, same, place⟩, ?_⟩
      rintro ⟨others, other, again, place⟩
      cases same.symm.trans again
      exact place

/-- Namespaces one after another add their own files. -/
theorem mem_drafts_foldlM
    [Name.Lettering]
    {project : Project}
    {titles : List Titled}
    {before after : Progress}
    {draft : Draft}
    (added : titles.foldlM (addNamespace project) before = some after) :
    draft ∈ after.drafts ↔
      draft ∈ before.drafts ∨ ∃ titled ∈ titles, IsDraftOf project titled draft :=
  mem_foldlM_iff (addNamespace project) Progress.drafts (IsDraftOf project)
    (fun added _ => mem_drafts_addNamespace added) added draft

/-- Warnings add no files. -/
theorem drafts_foldl_warn
    (warnings : List Warning)
    (before : Progress) :
    (warnings.foldl Progress.warn before).drafts = before.drafts := by
  induction warnings generalizing before with
  | nil => rfl
  | cons warning rest hypothesis => exact hypothesis (before.warn warning)

/-- The shared types of a module add their file. -/
theorem mem_drafts_addShared
    [Name.Lettering]
    {project : Project}
    {before : Progress}
    {shared : String × List String}
    {draft : Draft} :
    draft ∈ (addShared project before shared).drafts ↔
      draft ∈ before.drafts ∨ IsSharedDraftOf project shared draft := by
  dsimp only [addShared, IsSharedDraftOf]
  split
  next empty => simp [empty, drafts_foldl_warn]
  next filled => simp [filled, Progress.addPart, drafts_foldl_warn]

theorem mem_drafts_foldl
    [Name.Lettering]
    {project : Project}
    {modules : List (String × List String)}
    {before : Progress}
    {draft : Draft} :
    draft ∈ (modules.foldl (addShared project) before).drafts ↔
      draft ∈ before.drafts ∨ ∃ shared ∈ modules, IsSharedDraftOf project shared draft :=
  mem_foldl_iff (addShared project) Progress.drafts (IsSharedDraftOf project)
    (fun _ _ _ => mem_drafts_addShared) modules before draft

/-- A run makes the client and resource files that it has to write. -/
theorem mem_drafts_iff
    [Name.Lettering]
    {project : Project}
    {only : NameSet}
    {made : Progress}
    {draft : Draft}
    (ran : progress project only = some made) :
    draft ∈ made.drafts ↔ Written project only draft := by
  obtain ⟨managed, converted, same⟩ := Option.bind_eq_some_iff.mp ran
  cases same
  rw [mem_drafts_foldl, mem_drafts_foldlM converted]
  constructor
  · rintro ((impossible | ⟨titled, selected, definitions, schema, converted, rfl | rfl⟩) |
      ⟨⟨name, ids⟩, wanted, filled, rfl⟩)
    · exact absurd impossible List.not_mem_nil
    · exact .client (.managed selected converted)
    · exact .resource selected converted
    · exact .client (.shared wanted filled)
  · intro written
    cases written with
    | client file =>
        cases file with
        | managed selected converted =>
            exact .inl (.inr ⟨_, selected, _, _, converted, .inl rfl⟩)
        | shared wanted filled => exact .inr ⟨_, wanted, filled, rfl⟩
    | resource selected converted =>
        exact .inl (.inr ⟨_, selected, _, _, converted, .inr rfl⟩)

/-- The file with the text of a draft laid out. -/
def rendered (request : Request) (draft : Draft) : GeneratedFile :=
  ⟨draft.path, header request.source ++ Code.fileText request.visibility draft.items⟩

/-- The files of a run are those that it has to write and those that declare modules. -/
theorem mem_files_iff
    [Name.Lettering]
    {project : Project}
    {request : Request}
    {output : Output}
    {file : GeneratedFile}
    (ran : generate project request = some (.ok output)) :
    file ∈ output.files ↔
      ∃ draft, file = rendered request draft ∧
        (Written project request.only draft ∨
          ∃ made, progress project request.only = some made ∧
            draft ∈ moduleDrafts made.modules) := by
  obtain ⟨made, progressed, laidOut⟩ := Option.bind_eq_some_iff.mp ran
  have same := Option.some.inj laidOut
  dsimp only [Generation.output] at same
  split at same
  · cases same
  cases same
  simp only [List.mem_map, (List.mergeSort_perm _ _).mem_iff, List.mem_append,
    mem_drafts_iff progressed]
  constructor
  · rintro ⟨draft, written | declares, rfl⟩
    · exact ⟨draft, rfl, .inl written⟩
    · exact ⟨draft, rfl, .inr ⟨made, progressed, declares⟩⟩
  · rintro ⟨draft, rfl, written | ⟨other, again, declares⟩⟩
    · exact ⟨draft, .inl written, rfl⟩
    · obtain rfl : made = other := Option.some.inj (progressed.symm.trans again)
      exact ⟨draft, .inr declares, rfl⟩

/-- Every file that declares a module has the same name. -/
theorem name_of_mem_moduleDrafts
    {modules : Modules}
    {draft : Draft}
    (member : draft ∈ moduleDrafts modules) :
    draft.path.name = "mod.rs" := by
  rcases List.mem_append.mp member with part | root
  · obtain ⟨⟨name, stems⟩, _, rfl⟩ := List.mem_map.mp part
    rfl
  · split at root
    · cases root
    · rw [List.mem_singleton.mp root]

/-- What holds of each shared entry that is converted holds of all together. -/
theorem good_convertShared
    [Name.Lettering]
    {project : Project}
    {Good : Definitions → Prop}
    {ids : List String}
    (accumulates : Definitions.Accumulates Good)
    (entry : ∀ id ∈ ids, ∀ definitions,
      Client.convertEntry project.registry project.index id = .ok definitions →
        Good definitions) :
    Good (convertShared project ids).1 := by
  induction ids with
  | nil => exact accumulates.empty
  | cons id rest hypothesis =>
      obtain ⟨first, rest⟩ := List.forall_mem_cons.mp entry
      dsimp only [convertShared]
      split
      next definitions converted =>
        exact accumulates.append (first definitions converted) (hypothesis rest)
      next => exact hypothesis rest

/-- The definitions of shared entries are traced. -/
theorem traced_convertShared
    [Name.Lettering]
    (project : Project)
    (ids : List String) :
    (convertShared project ids).1.Traced project.registry project.index :=
  good_convertShared Definitions.accumulates_traced fun _ _ _ => Client.traced_convertEntry

/-- A namespace that is converted has a client. -/
theorem convertNamespace_of_convert
    [Name.Lettering]
    {project : Project}
    {managed : Namespace}
    {definitions : Definitions}
    {schema : Resource.ResourceSchema}
    (converted : convert project managed = some (.ok (definitions, schema))) :
    Client.convertNamespace project.registry project.index managed = .ok definitions := by
  unfold convert at converted
  split at converted
  · cases converted
  obtain ⟨outcome, _, converted⟩ := Option.bind_eq_some_iff.mp converted
  split at converted
  · cases converted
  next other =>
    have same := Option.some.inj converted
    cases made : Client.convertNamespace project.registry project.index managed with
    | error cause => rw [made] at same; cases same
    | ok others =>
        rw [made] at same
        cases same
        rfl

/-- The definitions of every client file are traced. -/
theorem traced_of_isClientFile
    [Name.Lettering]
    {document : Document}
    {only : NameSet}
    {directory stem : String}
    {definitions : Definitions}
    (isFile : IsClientFile (.ofDocument document) only directory stem definitions) :
    definitions.Traced ⟨document.schemas⟩ (.build ⟨document.schemas⟩ document.namespaces) := by
  cases isFile with
  | managed _ converted =>
      exact Client.traced_convertNamespace (convertNamespace_of_convert converted)
  | @shared _ ids _ _ => exact traced_convertShared (.ofDocument document) ids

/-- A client file has every struct name of its types in scope exactly if it covers what its
own module declares. -/
theorem inScope_clientFile_iff
    [Name.Lettering]
    {document : Document}
    {only : NameSet}
    {directory stem : String}
    {definitions : Definitions}
    (isFile : IsClientFile (.ofDocument document) only directory stem definitions) :
    InScope (clientFile (.ofDocument document) directory definitions) definitions ↔
      CoversModule (Project.ofDocument document).index directory definitions :=
  inScope_iff rfl (traced_of_isClientFile isFile)

/-- A run writes its client files, and beside them resource files and files that declare
modules only. In a client file every struct name that a type mentions is in scope exactly
if the file covers what its own module declares: the imports leave these classes out, even
where another file of the module declares them. -/
theorem client_names_in_scope_iff
    [Name.Lettering]
    (document : Document)
    (request : Request) :
    (∀ output, generate (.ofDocument document) request = some (.ok output) →
      (∀ directory stem definitions,
        IsClientFile (.ofDocument document) request.only directory stem definitions →
          rendered request ⟨.ofPart directory stem,
            clientFile (.ofDocument document) directory definitions⟩ ∈ output.files) ∧
      ∀ file ∈ output.files,
        (∃ directory stem definitions,
          IsClientFile (.ofDocument document) request.only directory stem definitions ∧
            file = rendered request ⟨.ofPart directory stem,
              clientFile (.ofDocument document) directory definitions⟩) ∨
        (∃ titled ∈ select (.ofDocument document) request.only,
          file.path =
            .ofPart titled.managed.outputModule (titled.managed.fileStem ++ "_resource")) ∨
        file.path.name = "mod.rs") ∧
    ∀ directory stem definitions,
      IsClientFile (.ofDocument document) request.only directory stem definitions →
        (InScope (clientFile (.ofDocument document) directory definitions) definitions ↔
          CoversModule (Project.ofDocument document).index directory definitions) := by
  refine ⟨?_, ?_⟩
  · intro output ran
    refine ⟨?_, ?_⟩
    · intro directory stem definitions isFile
      exact (mem_files_iff ran).mpr ⟨_, rfl, .inl (.client isFile)⟩
    · intro file member
      obtain ⟨draft, rfl, written | ⟨made, _, declares⟩⟩ := (mem_files_iff ran).mp member
      · cases written with
        | client isFile => exact .inl ⟨_, _, _, isFile, rfl⟩
        | resource selected _ => exact .inr (.inl ⟨_, selected, rfl⟩)
      · exact .inr (.inr (name_of_mem_moduleDrafts declares))
  · intro directory stem definitions isFile
    exact inScope_clientFile_iff isFile

/-- An entry that a module other than the shared one declares. -/
def addressEntry : Node := .object { name := "addr", moduleName := some "net" } {} []

/-- A field that stands for the entry. -/
def addressField : Node := .object { name := "address", reference := some "addr" } {} []

/-- An entry with the field. -/
def interfaceEntry : Node := .object { name := "iface" } {} [addressField]

/-- A namespace that manages the entry with the field in the module of the other. -/
def interfaceNamespace : Namespace :=
  { name := "Iface", schema := "iface", moduleName := some "net" }

/-- Both entries, one of them managed. -/
def interfaceDocument : Document where
  schemas := .ofList [("addr", addressEntry), ("iface", interfaceEntry)]
  namespaces := [interfaceNamespace]

/-- The document made ready. -/
def interfaceProject : Project := .ofDocument interfaceDocument

theorem sorted_addressField : Node.sorted [addressField] = [addressField] :=
  List.mergeSort_singleton addressField

/-- The walk over the entry opens its field and finds nothing below it. -/
theorem collect_interfaceEntry :
    ∃ visits, interfaceProject.registry.collect .expanded interfaceEntry = .ok visits := by
  have resolved : interfaceProject.registry.resolveAt FieldPath.root interfaceEntry =
      .ok interfaceEntry := rfl
  have target : ∀ path, interfaceProject.registry.target path addressField "addr" =
      .ok addressEntry := fun _ => rfl
  have noneOpen : interfaceEntry.reference?.toList = [] := rfl
  unfold Registry.collect
  rw [resolved, ok_bind, noneOpen, interfaceEntry, Registry.descend_object, sorted_addressField,
    Registry.visitAll_cons, Registry.visit_of_opened rfl (target _) List.not_mem_nil, addressEntry,
    Registry.descend_object]
  simp [Node.sorted]

/-- A namespace without functions that manages the entry. -/
def managingNamespace (name : String) (moduleName : Option String) : Namespace :=
  { name := name, schema := "iface", moduleName := moduleName }

/-- The conversion of the entry to a resource schema succeeds. -/
theorem ofNamespace_managingNamespace
    (name : String)
    (moduleName : Option String) :
    ∃ attributes, Resource.ofNamespace interfaceProject.registry ⟨.empty, .empty⟩
        (managingNamespace name moduleName) =
      some (.ok (Resource.schemaOf (managingNamespace name moduleName) { name := "iface" }
        attributes)) := by
  obtain ⟨visits, walked⟩ := collect_interfaceEntry
  have found : interfaceProject.registry.root (managingNamespace name moduleName).schema =
      .ok interfaceEntry := rfl
  have opened : ∃ facts,
      Resource.openField interfaceProject.registry (FieldPath.root.child addressField.name)
        (UsageIndex.usage ⟨.empty, .empty⟩ addressField.name) addressField =
          .ok (facts, addressEntry) := ⟨_, rfl⟩
  obtain ⟨facts, opened⟩ := opened
  unfold Resource.ofNamespace
  rw [found]
  dsimp only [interfaceEntry]
  rw [← interfaceEntry, walked]
  dsimp only
  rw [sorted_addressField, Registry.convertFields, Registry.convertField, opened]
  dsimp only
  rw [addressEntry, Registry.convertCanonical, Node.sorted, List.mergeSort_nil,
    Registry.convertFields, Registry.convertFields]
  exact ⟨_, rfl⟩

/-- What the client of the entry declares and refers to. -/
def interfaceClient (index : TypeIndex) : Definitions where
  structs := [{
    name := index.classOf "iface"
    fields := [{
      name := Name.fieldName "address"
      wireName := "address"
      documentation := Client.fieldDocumentation addressField addressEntry
      type := .named (index.classOf "addr")
      isOptional := true
      location := none }] }]
  dependencies := .ofList ["addr"]

/-- The type of the field is the class of the other entry. -/
theorem convertType_addressField
    (index : TypeIndex)
    (owner : String)
    (path : FieldPath)
    (enclosing : List Key.Place) :
    Client.convertType interfaceProject.registry index [] owner path enclosing addressField =
      .ok (.named (index.classOf "addr"), { dependencies := ["addr"] }) := by
  have opened : interfaceProject.registry.expand [] path addressField =
      .ok ⟨addressEntry, ["addr"], .inl (Order.unseen_cons_lt (by decide) List.not_mem_nil)⟩ := rfl
  rw [Client.convertType, opened]
  rfl

/-- The client of the entry uses the class of the other one. -/
theorem convertNamespace_managingNamespace
    (index : TypeIndex)
    (name : String)
    (moduleName : Option String) :
    Client.convertNamespace interfaceProject.registry index (managingNamespace name moduleName) =
      .ok (interfaceClient index) := by
  have found : interfaceProject.registry.root (managingNamespace name moduleName).schema =
      .ok interfaceEntry := rfl
  have resolved : interfaceProject.registry.resolveAt (FieldPath.root.child addressField.name)
    addressField = .ok addressEntry := rfl
  have noMethods : ∀ path name enclosing, Client.fieldKeyMethods interfaceProject.registry path name
      ⟨⟨addressField, addressEntry⟩, enclosing⟩ = .ok [] := fun _ _ _ => rfl
  unfold Client.convertNamespace Client.convertEntry
  rw [found, ok_bind]
  dsimp only [interfaceEntry, Client.convertRoot]
  rw [sorted_addressField, Client.convertFields, resolved, ok_bind]
  dsimp only
  rw [noMethods, ok_bind, convertType_addressField, ok_bind, Client.convertFields]
  rfl

/-- The conversion of such a namespace succeeds, wherever the entries are declared. -/
theorem convert_managingNamespace
    (project : Project)
    (registered : project.registry = interfaceProject.registry)
    (name : String)
    (moduleName : Option String) :
    ∃ attributes, convert project (managingNamespace name moduleName) =
      some (.ok (interfaceClient project.index,
        Resource.schemaOf (managingNamespace name moduleName) { name := "iface" } attributes)) := by
  obtain ⟨attributes, converted⟩ := ofNamespace_managingNamespace name moduleName
  have usage : UsageIndex.ofNamespace interfaceProject.registry
      (managingNamespace name moduleName) = .ok ⟨.empty, .empty⟩ := rfl
  refine ⟨attributes, ?_⟩
  rw [convert, registered, usage]
  dsimp only
  rw [converted, convertNamespace_managingNamespace]
  rfl

/-- So does that of the other entry, which is a shared type. -/
theorem convertShared_addressEntry
    (project : Project)
    (registered : project.registry = interfaceProject.registry) :
    convertShared project ["addr"] =
      ({ structs := [{ name := project.index.classOf "addr" }] }, []) := by
  have found : interfaceProject.registry.root "addr" = .ok addressEntry := rfl
  have converted : Client.convertEntry project.registry project.index "addr" =
      .ok { structs := [{ name := project.index.classOf "addr" }] } := by
    unfold Client.convertEntry
    rw [registered, found, ok_bind]
    dsimp only [addressEntry, Client.convertRoot]
    rw [Node.sorted, List.mergeSort_nil, Client.convertFields]
    rfl
  rw [convertShared, converted]
  rfl

/-- The struct that the client of the entry declares. -/
def interfaceStruct : Client.Struct where
  name := interfaceProject.index.classOf "iface"
  fields := [{
    name := Name.fieldName "address"
    wireName := "address"
    documentation := Client.fieldDocumentation addressField addressEntry
    type := .named (interfaceProject.index.classOf "addr")
    isOptional := true
    location := none }]

/-- The definitions of the client of the entry. -/
def interfaceDefinitions : Definitions where
  structs := [interfaceStruct]
  dependencies := .ofList ["addr"]

/-- The conversion of the namespace succeeds. -/
theorem convert_interfaceNamespace :
    ∃ schema, convert interfaceProject interfaceNamespace =
      some (.ok (interfaceDefinitions, schema)) := by
  obtain ⟨attributes, converted⟩ :=
    convert_managingNamespace interfaceProject rfl "Iface" (some "net")
  exact ⟨_, converted⟩

/-- A namespace alone has one slug. -/
theorem assignSlugs_singleton
    (ledger : Name.SlugLedger)
    (managed : Namespace) :
    ∃ slug, assignSlugs ledger [managed] = [⟨managed, slug⟩] := by
  rw [assignSlugs]
  split <;> exact ⟨_, rfl⟩

/-- The run selects the namespace. -/
theorem select_interfaceProject :
    ∃ slug, select interfaceProject .empty = [⟨interfaceNamespace, slug⟩] := by
  obtain ⟨slug, titled⟩ := assignSlugs_singleton .empty interfaceNamespace
  have all : select interfaceProject .empty = assignSlugs .empty [interfaceNamespace] := rfl
  exact ⟨slug, all.trans titled⟩

/-- A run over the document skips nothing. -/
theorem progress_interfaceProject :
    ∃ made, progress interfaceProject .empty = some made ∧ made.statistics.skipped = 0 := by
  obtain ⟨schema, converted⟩ := convert_interfaceNamespace
  obtain ⟨slug, selected⟩ := select_interfaceProject
  have shared : sharedModules (wantedTypes interfaceProject .empty) = [("net", ["addr"])] := rfl
  have added := addNamespace_of_convert (start interfaceProject .empty) slug converted
  unfold progress
  rw [selected, shared, List.foldlM_cons, added]
  refine ⟨_, rfl, ?_⟩
  rw [List.foldl_cons, addShared, convertShared_addressEntry _ rfl]
  rfl

/-- The client of the entry does not cover the other one, which its module declares. -/
theorem not_coversModule_interfaceDefinitions :
    ¬CoversModule interfaceProject.index "net" interfaceDefinitions := by
  intro covers
  have structs : interfaceDefinitions.allStructs = [interfaceStruct] := rfl
  have dependencies : interfaceDefinitions.dependencies.names = ["addr"] := rfl
  have found : interfaceProject.index.get? "addr" =
      some ⟨"net", interfaceProject.index.classOf "addr", false⟩ := rfl
  have differs :
      interfaceProject.index.classOf "iface" ≠ interfaceProject.index.classOf "addr" := by
    decide
  rw [CoversModule, structs, dependencies] at covers
  rcases covers "addr" List.mem_cons_self _ found rfl with
    ⟨struct, own, same⟩ | ⟨other, known, elsewhere, foundOther, foreign, _⟩
  · rw [List.mem_singleton.mp own] at same
    exact differs same
  · rw [List.mem_singleton.mp known, found] at foundOther
    cases foundOther
    exact foreign rfl

/-- Not every struct name of a run that skips nothing is in scope: the field of the entry
has the class of the other one, which a file beside it declares. -/
theorem not_inScope_interfaceDocument :
    ¬∀ document made directory stem definitions,
      progress (.ofDocument document) .empty = some made →
      made.statistics.skipped = 0 →
      IsClientFile (.ofDocument document) .empty directory stem definitions →
      InScope (clientFile (.ofDocument document) directory definitions) definitions := by
  intro inScope
  obtain ⟨schema, converted⟩ := convert_interfaceNamespace
  obtain ⟨slug, selected⟩ := select_interfaceProject
  obtain ⟨made, ran, complete⟩ := progress_interfaceProject
  have member : (⟨interfaceNamespace, slug⟩ : Titled) ∈ select interfaceProject .empty := by
    rw [selected]
    exact List.mem_singleton.mpr rfl
  have isFile := IsClientFile.managed member converted
  have directory : interfaceNamespace.outputModule = "net" := rfl
  have covered := (inScope_clientFile_iff isFile).mp (inScope _ made _ _ _ ran complete isFile)
  rw [directory] at covered
  exact not_coversModule_interfaceDefinitions covered

end Generation
end SchemaCompiler
