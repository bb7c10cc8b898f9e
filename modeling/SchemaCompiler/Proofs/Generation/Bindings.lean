import SchemaCompiler.Name.Standard
import SchemaCompiler.Proofs.Client.StructNames
import SchemaCompiler.Proofs.Generation.Imports
import SchemaCompiler.Proofs.Name.Spelling

/-!
# Names bound by a client file

A client file binds the names that it declares and the classes that it imports. Nothing keeps
these apart: every name is made by the naming rule from where it stands in the document, and no
class is left out of the imports unless its module is that of the file. So the names of a file are
distinct exactly if the document makes them so. A type that code uses without a path is bound only
by an entry that declares it as the name of its class.
-/

namespace SchemaCompiler
namespace Generation

open SchemaCompiler.Client (AreNamesOf Definitions Import Root TypeIndex)
open SchemaCompiler.Code (Item arePlain)
open SchemaCompiler.Order (NameSet nodup_eraseDups)
open SchemaCompiler.Outcome
open SchemaCompiler.Schema

/-! ## Names of items -/

/-- The name that an item binds: of the struct or the alias that it declares, or of the class that
it takes from a module of the crate. -/
def boundName? : Item → Option String
  | .struct _ name _ => some name
  | .alias _ name _ => some name
  | .use false ["crate", _] (.one name) => some name
  | _ => none

theorem isView_boundName? :
    IsView boundName? some some fun required => some required.className :=
  ⟨fun _ _ _ => rfl, fun _ _ _ => rfl, fun _ => rfl, fun _ _ => rfl, rfl⟩

/-- A client file binds the classes of its imports and the names that it declares. -/
theorem boundNames_clientItems
    [Name.Lettering]
    (definitions : Definitions)
    (imports : List Import) :
    (clientItems definitions imports).filterMap boundName? =
      imports.map Import.className ++ definitions.names := by
  have output : ∀ output, IsView.ofOutput some some output = some output.name := fun _ => ite_self _
  rw [isView_boundName?.filterMap_clientItems, funext output]
  simp only [List.filterMap_eq_map', Definitions.names, List.append_assoc]

/-! ## Distinct names -/

/-- A file of the module imports the class of the id from another module. -/
structure IsImported
    (index : TypeIndex)
    (directory : String)
    (dependencies : NameSet)
    (id : String)
    (shared : Client.SharedType) : Prop where
  needed : id ∈ dependencies.names
  found : index.get? id = some shared
  foreign : shared.moduleName ≠ directory

/-- The names that a file declares are distinct, it imports every class from one module only, and
declares none of those that it imports. -/
structure BindsOnce
    (index : TypeIndex)
    (directory : String)
    (definitions : Definitions) : Prop where
  declared : definitions.names.Nodup
  imported {id other : String} {shared elsewhere : Client.SharedType} :
    IsImported index directory definitions.dependencies id shared →
    IsImported index directory definitions.dependencies other elsewhere →
    shared.className = elsewhere.className → shared.moduleName = elsewhere.moduleName
  apart {id : String} {shared : Client.SharedType} :
    IsImported index directory definitions.dependencies id shared →
    shared.className ∉ definitions.names

/-- The imports of a file are those of the ids that it imports. -/
theorem mem_imports_iff
    {index : TypeIndex}
    {directory : String}
    {dependencies : NameSet}
    {required : Import} :
    required ∈ Import.ofDependencies index directory dependencies ↔
      ∃ id shared, IsImported index directory dependencies id shared ∧
        required = ⟨shared.moduleName, shared.className⟩ := by
  rw [mem_ofDependencies_iff]
  constructor
  · rintro ⟨id, needed, shared, found, foreign, same⟩
    exact ⟨id, shared, ⟨needed, found, foreign⟩, same⟩
  · rintro ⟨id, shared, ⟨needed, found, foreign⟩, same⟩
    exact ⟨id, needed, shared, found, foreign, same⟩

/-- The names that a client file binds are distinct exactly if it binds each of them once. -/
theorem nodup_boundNames_iff
    [Name.Lettering]
    (index : TypeIndex)
    (directory : String)
    (definitions : Definitions) :
    ((clientItems definitions
        (Import.ofDependencies index directory definitions.dependencies)).filterMap
          boundName?).Nodup ↔
      BindsOnce index directory definitions := by
  have once : (Import.ofDependencies index directory definitions.dependencies).Nodup :=
    nodup_eraseDups _
  rw [boundNames_clientItems, List.nodup_append, List.nodup_map_iff_inj_on once]
  constructor
  · rintro ⟨imports, declared, apart⟩
    refine ⟨declared, fun first second same => ?_, fun imported member => ?_⟩
    · have equal := imports _ (mem_imports_iff.mpr ⟨_, _, first, rfl⟩) _
        (mem_imports_iff.mpr ⟨_, _, second, rfl⟩) same
      exact congrArg Import.moduleName equal
    · have required := mem_imports_iff.mpr ⟨_, _, imported, rfl⟩
      exact apart _ (List.mem_map_of_mem required) _ member rfl
  · rintro ⟨declared, imported, apart⟩
    refine ⟨?_, declared, ?_⟩
    · intro left isLeft right isRight same
      obtain ⟨id, shared, ofLeft, rfl⟩ := mem_imports_iff.mp isLeft
      obtain ⟨other, elsewhere, ofRight, rfl⟩ := mem_imports_iff.mp isRight
      exact congrArg₂ Import.mk (imported ofLeft ofRight same) same
    · rintro name isImport other member rfl
      obtain ⟨required, isRequired, rfl⟩ := List.mem_map.mp isImport
      obtain ⟨id, shared, ofId, rfl⟩ := mem_imports_iff.mp isRequired
      exact apart ofId member

/-! ## Types without a path -/

/-- The types of scalars that code writes in small letters. -/
def primitiveTypes : List String := ["bool", "i64", "f64"]

/-- The types that a client file uses without a path. -/
def unqualifiedTypes : List String := primitiveTypes ++ ["String", "Option", "Vec"]

theorem primitiveTypes_spec :
    ∀ name ∈ primitiveTypes, Name.beginsWithCapital name = false ∧ Name.isKept name = true := by
  decide

/-- Of the types without a path only those in small letters are not reserved. -/
theorem mem_primitiveTypes_of_not_reserved :
    ∀ name ∈ unqualifiedTypes, name ∉ Name.reservedTypes → name ∈ primitiveTypes := by
  decide

/-- No type name is that of a type without a path. -/
theorem typeName_not_mem_unqualifiedTypes
    [lettering : Name.Lettering]
    (capitalizes : lettering.Capitalizes)
    (name : String) :
    Name.typeName name ∉ unqualifiedTypes := by
  intro member
  obtain ⟨capital, free⟩ := capitalizes.typeName_spec name
  have primitive := mem_primitiveTypes_of_not_reserved _ member free
  rw [(primitiveTypes_spec _ primitive).1] at capital
  cases capital

/-- A declared name is that of a type without a path only if it is written so. -/
theorem declaredName_eq_iff
    [lettering : Name.Lettering]
    (capitalizes : lettering.Capitalizes)
    {declared name : String}
    (unqualified : name ∈ unqualifiedTypes) :
    Name.declaredName declared = name ↔ name ∈ primitiveTypes ∧ declared = name := by
  constructor
  · rintro rfl
    have primitive :=
      mem_primitiveTypes_of_not_reserved _ unqualified (capitalizes.declaredName_spec declared).2
    rcases Name.declaredName_cases declared with ⟨same, -, -⟩ | made
    · exact ⟨primitive, same.symm⟩
    · rw [made] at unqualified
      exact absurd unqualified (typeName_not_mem_unqualifiedTypes capitalizes declared)
  · rintro ⟨primitive, rfl⟩
    exact if_pos (primitiveTypes_spec _ primitive).2

/-- A name with a capital behind its first sign is not that of a type without a path. -/
theorem append_not_mem_unqualifiedTypes
    {lead ending : String}
    (visible : lead ≠ "")
    (capital : Name.beginsWithCapital ending = true) :
    lead ++ ending ∉ unqualifiedTypes := by
  have tails : ∀ name ∈ unqualifiedTypes,
      name.toList.tail.all fun character => !character.isUpper := by
    decide
  exact fun member => Name.append_ne_of_beginsWithCapital visible capital (tails _ member) rfl

/-! ## Classes -/

/-- The class name that the document declares for an object entry. -/
def declaredClass? (registry : Registry) (id : String) : Option String :=
  match registry.get? id with
  | some (.object _ facets _) => facets.className
  | _ => none

/-- The class of an entry that is placed is made of its declared name or of its id. -/
theorem className_of_sharedType?
    [Name.Lettering]
    {namespaces : List Namespace}
    {id : String}
    {entry : Node}
    {shared : Client.SharedType}
    (placed : Client.sharedType? namespaces id entry = some shared) :
    ∃ declaration facets children, entry = .object declaration facets children ∧
      shared.className = Client.entryClass id facets := by
  cases entry with
  | scalar | array => cases placed
  | object declaration facets children =>
      refine ⟨declaration, facets, children, rfl, ?_⟩
      dsimp only [Client.sharedType?] at placed
      split at placed <;>
        exact congrArg Client.SharedType.className (Option.some.inj placed).symm

variable
  {registry : Registry}
  {namespaces : List Namespace}

/-- The class of an id is made of the declared name, if there is one, else of the id. -/
theorem classOf_build
    [Name.Lettering]
    (registry : Registry)
    (namespaces : List Namespace)
    (id : String) :
    (TypeIndex.build registry namespaces).classOf id =
      match declaredClass? registry id with
      | some declared => Name.declaredName declared
      | none => Name.typeName id := by
  cases found : (TypeIndex.build registry namespaces).get? id with
  | some shared =>
      obtain ⟨entry, registered, placed⟩ := get?_build found
      obtain ⟨declaration, facets, children, rfl, same⟩ := className_of_sharedType? placed
      rw [classOf_eq found, same, declaredClass?, registered]
      rfl
  | none =>
      have undeclared : declaredClass? registry id = none := by
        unfold declaredClass?
        split
        next declaration facets children registered =>
          obtain ⟨shared, placed⟩ := exists_shared_of_object namespaces registered rfl
          rw [placed] at found
          cases found
        next => rfl
      rw [undeclared, TypeIndex.classOf, found]

theorem classOf_build_ne_empty
    [lettering : Name.Lettering]
    (capitalizes : lettering.Capitalizes)
    (id : String) :
    (TypeIndex.build registry namespaces).classOf id ≠ "" := by
  rw [classOf_build]
  split
  next declared _ => exact (capitalizes.declaredName_spec declared).1
  next => exact Name.ne_empty_of_beginsWithCapital (capitalizes.typeName_spec id).1

/-- A class is a type without a path exactly if the document declares its name so. -/
theorem classOf_build_eq_iff
    [lettering : Name.Lettering]
    (capitalizes : lettering.Capitalizes)
    {id name : String}
    (unqualified : name ∈ unqualifiedTypes) :
    (TypeIndex.build registry namespaces).classOf id = name ↔
      name ∈ primitiveTypes ∧ declaredClass? registry id = some name := by
  rw [classOf_build]
  cases declaredClass? registry id with
  | some declared =>
      dsimp only
      rw [declaredName_eq_iff capitalizes unqualified, Option.some.injEq]
  | none =>
      constructor
      · rintro rfl
        exact absurd unqualified (typeName_not_mem_unqualifiedTypes capitalizes id)
      · rintro ⟨-, impossible⟩
        cases impossible

/-! ## Names that are made -/

theorem nestedName_eq
    [lettering : Name.Lettering]
    (capitalizes : lettering.Capitalizes)
    (owner name : String) :
    ∃ ending, Client.nestedName owner name = owner ++ ending ∧
      Name.beginsWithCapital ending = true :=
  ⟨_, rfl, (capitalizes.typeName_spec _).1⟩

/-- Roots are not without a name. -/
theorem name_root_ne_empty
    [lettering : Name.Lettering]
    (capitalizes : lettering.Capitalizes)
    (root : Root) :
    root.name (TypeIndex.build registry namespaces) ≠ "" := by
  cases root with
  | entry id => exact classOf_build_ne_empty capitalizes id
  | input lead function => exact fun empty => by simp [Root.name] at empty
  | output lead node => exact fun empty => by simp [Root.name] at empty

/-- Only the class of an entry can be a type without a path. -/
theorem name_root_eq_iff
    [lettering : Name.Lettering]
    (capitalizes : lettering.Capitalizes)
    {root : Root}
    {name : String}
    (unqualified : name ∈ unqualifiedTypes) :
    root.name (TypeIndex.build registry namespaces) = name ↔
      ∃ id, root = .entry id ∧ name ∈ primitiveTypes ∧ declaredClass? registry id = some name := by
  have other : ∀ lead ending, Name.beginsWithCapital ending = true → ending ∉ unqualifiedTypes →
      lead ++ ending ≠ name := by
    rintro lead ending capital free rfl
    by_cases visible : lead = ""
    · rw [visible, String.empty_append] at unqualified
      exact free unqualified
    · exact append_not_mem_unqualifiedTypes visible capital unqualified
  cases root with
  | entry id =>
      rw [Root.name, classOf_build_eq_iff capitalizes unqualified]
      simp
  | input lead function =>
      simp [Root.name, other lead "Input" (by decide) (by decide)]
  | output lead node =>
      simp [Root.name, other lead "Output" (by decide) (by decide)]

theorem structName_ne_empty
    [lettering : Name.Lettering]
    (capitalizes : lettering.Capitalizes)
    {root : String}
    (visible : root ≠ "")
    (place : Key.Place)
    (around : List Key.Place) :
    Client.structName root place around ≠ "" := by
  induction around generalizing place with
  | nil => exact visible
  | cons parent rest hypothesis =>
      rw [Client.structName]
      split
      · obtain ⟨ending, same, -⟩ := nestedName_eq capitalizes
          (Client.structName root parent rest) (Key.Position.nameFrom place (parent :: rest))
        rw [same]
        exact fun empty => hypothesis parent (String.append_eq_empty_iff.mp empty).1
      · exact hypothesis parent

/-- The struct of an object inside a root is not called as a type without a path. -/
theorem objectName_not_mem_unqualifiedTypes
    [lettering : Name.Lettering]
    (capitalizes : lettering.Capitalizes)
    {root : Root}
    {name : String}
    (visible : name ≠ "")
    {object : Key.Position}
    (inside : root.Inside registry object) :
    Client.objectName name object ∉ unqualifiedTypes := by
  obtain ⟨start, -, inner, -, written⟩ := inside
  obtain ⟨isObject, around⟩ := written.position
  have notStart : object.enclosing ≠ [] := fun empty => by
    rw [empty] at around
    cases List.suffix_nil.mp around
  rw [Client.objectName, Client.structName_of_object isObject notStart]
  obtain ⟨ending, same, capital⟩ := nestedName_eq capitalizes
    (Client.ownerName name object.enclosing) (Key.Position.nameFrom object.place object.enclosing)
  rw [same]
  refine append_not_mem_unqualifiedTypes ?_ capital
  cases enclosing : object.enclosing with
  | nil => exact visible
  | cons place rest => exact structName_ne_empty capitalizes visible place rest

/-! ## Client files of a run -/

/-- The shared entries that can be converted. -/
def sharedRoots [Name.Lettering] (project : Project) (ids : List String) : List Root :=
  (ids.filter fun id =>
    (Client.convertEntry project.registry project.index id).toOption.isSome).map .entry

/-- The client files of a run with their definitions and with what they name by themselves. -/
inductive HasRoots
    [Name.Lettering]
    (project : Project)
    (only : NameSet) : (directory stem : String) → Definitions → List Root → Prop
  /-- Of a selected namespace. -/
  | managed {titled : Titled} {definitions : Definitions} {schema : Resource.ResourceSchema} :
      titled ∈ select project only →
      convert project titled.managed = some (.ok (definitions, schema)) →
      HasRoots project only titled.managed.outputModule (titled.managed.fileStem ++ "_client")
        definitions (Client.Request.managed titled.managed).roots
  /-- Of the shared types of a module. -/
  | shared {name : String} {ids : List String} :
      (name, ids) ∈ sharedModules (wantedTypes project only) →
      (convertShared project ids).1.structs.isEmpty = false →
      HasRoots project only name sharedStem (convertShared project ids).1 (sharedRoots project ids)

theorem isClientFile_iff
    [Name.Lettering]
    {project : Project}
    {only : NameSet}
    {directory stem : String}
    {definitions : Definitions} :
    IsClientFile project only directory stem definitions ↔
      ∃ roots, HasRoots project only directory stem definitions roots := by
  constructor
  · intro isFile
    cases isFile with
    | managed selected converted => exact ⟨_, .managed selected converted⟩
    | shared isModule filled => exact ⟨_, .shared isModule filled⟩
  · rintro ⟨roots, hasRoots⟩
    cases hasRoots with
    | managed selected converted => exact .managed selected converted
    | shared isModule filled => exact .shared isModule filled

/-- Shared types declare the names of the entries among them that can be converted. -/
theorem names_convertShared
    [Name.Lettering]
    (project : Project)
    (ids : List String) :
    AreNamesOf project.registry project.index (sharedRoots project ids)
      (convertShared project ids).1.names := by
  induction ids with
  | nil => exact .nil
  | cons id rest hypothesis =>
      rw [convertShared]
      dsimp only
      cases converted : Client.convertEntry project.registry project.index id with
      | ok definitions =>
          have roots : sharedRoots project (id :: rest) =
              [.entry id] ++ sharedRoots project rest := by
            rw [sharedRoots, List.filter_cons_of_pos (by rw [converted]; rfl)]
            rfl
          rw [roots]
          exact ((Client.names_convertEntry converted).append hypothesis).of_perm
            (Definitions.names_append_perm definitions _)
      | error cause =>
          have roots : sharedRoots project (id :: rest) = sharedRoots project rest := by
            rw [sharedRoots, List.filter_cons_of_neg (by rw [converted]; exact Bool.false_ne_true)]
            rfl
          rw [roots]
          exact hypothesis

variable
  {document : Document}
  {request : Request}
  {output : Output}
  {only : NameSet}
  {directory stem : String}
  {definitions : Definitions}
  {roots : List Root}

/-- The names that a client file declares are those of its roots. -/
theorem names_of_hasRoots
    [Name.Lettering]
    {project : Project}
    (hasRoots : HasRoots project only directory stem definitions roots) :
    AreNamesOf project.registry project.index roots definitions.names := by
  cases hasRoots with
  | managed selected converted =>
      have made : (Client.Request.managed _).convert project.registry project.index =
          .ok definitions := convertNamespace_of_convert converted
      exact Client.names_convert made
  | shared isModule filled => exact names_convertShared project _

/-- A client file binds a type without a path exactly if it declares or imports an entry whose
class name the document declares so. -/
theorem mem_boundNames_iff
    [lettering : Name.Lettering]
    (capitalizes : lettering.Capitalizes)
    (named : AreNamesOf ⟨document.schemas⟩ (Project.ofDocument document).index roots
      definitions.names)
    {name : String}
    (unqualified : name ∈ unqualifiedTypes) :
    name ∈ (clientFile (.ofDocument document) directory definitions).filterMap boundName? ↔
      name ∈ primitiveTypes ∧ ∃ id, declaredClass? ⟨document.schemas⟩ id = some name ∧
        (.entry id ∈ roots ∨ ∃ shared,
          IsImported (Project.ofDocument document).index directory definitions.dependencies id
            shared) := by
  rw [clientFile, boundNames_clientItems, List.mem_append, named.mem_iff]
  constructor
  · rintro (imported | ⟨root, isRoot, own | ⟨object, inside, other⟩⟩)
    · obtain ⟨required, isRequired, rfl⟩ := List.mem_map.mp imported
      obtain ⟨id, shared, isImported, rfl⟩ := mem_imports_iff.mp isRequired
      obtain ⟨primitive, declared⟩ :=
        (classOf_build_eq_iff capitalizes unqualified).mp (classOf_eq isImported.found)
      exact ⟨primitive, id, declared, .inr ⟨shared, isImported⟩⟩
    · obtain ⟨id, rfl, primitive, declared⟩ :=
        (name_root_eq_iff capitalizes unqualified).mp own.symm
      exact ⟨primitive, id, declared, .inl isRoot⟩
    · rw [other] at unqualified
      exact absurd unqualified
        (objectName_not_mem_unqualifiedTypes capitalizes (name_root_ne_empty capitalizes root)
            inside)
  · rintro ⟨primitive, id, declared, isRoot | ⟨shared, isImported⟩⟩
    · refine .inr ⟨.entry id, isRoot, .inl (Eq.symm ?_)⟩
      exact (name_root_eq_iff capitalizes unqualified).mpr ⟨id, rfl, primitive, declared⟩
    · refine .inl (List.mem_map.mpr ⟨_, mem_imports_iff.mpr ⟨id, shared, isImported, rfl⟩, ?_⟩)
      exact (classOf_eq isImported.found).symm.trans
        ((classOf_build_eq_iff capitalizes unqualified).mpr ⟨primitive, declared⟩)

/-! ## An entry with two namespaces -/

/-- A function that returns the entry. -/
def mirrorFunction : Function :=
  { name := "get", uri := "/site", output := some (Registry.pointer "" "site") }

/-- A namespace of the entry with the function. -/
def mirrorNamespace : Namespace :=
  { name := "Mirror", schema := "site", read := some mirrorFunction }

/-- The entry, first managed by a namespace without functions. -/
def mirrorDocument : Document where
  schemas := .ofList [("site", .object {} {} [])]
  namespaces := [siteNamespace "Site", mirrorNamespace]

/-- The document made ready. -/
def mirrorProject : Project := .ofDocument mirrorDocument.normalize

/-- The client of the namespace with the function. -/
def mirrorDefinitions (index : TypeIndex) : Definitions where
  structs := [{ name := index.classOf "site" }]
  inputs := [Client.inputOf mirrorFunction { name := "MirrorGetInput" }]
  outputs := [.alias "MirrorGetOutput" {} (.named (index.classOf "site"))]
  dependencies := .ofList ["site"]

/-- The function takes nothing, and what it returns has the class of the entry. -/
theorem convertFunction_mirrorFunction (index : TypeIndex) :
    Client.convertFunction siteProject.registry index (Name.typeName "Mirror") mirrorFunction =
      .ok { mirrorDefinitions index with structs := [] } := by
  have lead : Name.nested (Name.typeName "Mirror") mirrorFunction.name = "MirrorGet" := by
    decide
  have taken : mirrorFunction.itemizedInput = .ok (.object { name := "get" } {} []) := rfl
  have input : Client.convertInput siteProject.registry index "MirrorGet" mirrorFunction =
      .ok { inputs := [Client.inputOf mirrorFunction { name := "MirrorGetInput" }] } := by
    rw [Client.convertInput, taken, ok_bind]
    dsimp only [Client.convertRoot]
    rw [Node.sorted, List.mergeSort_nil, Client.convertFields]
    rfl
  have target : siteProject.registry.target (FieldPath.single "get")
      (Registry.pointer "" "site") "site" = .ok (.object { name := "site" } {} []) := rfl
  have output : Client.convertOutput siteProject.registry index "MirrorGetOutput"
      (FieldPath.single "get") (Registry.pointer "" "site") =
        .ok { outputs := [.alias "MirrorGetOutput" {} (.named (index.classOf "site"))]
              dependencies := .ofList ["site"] } := by
    have resolved : siteProject.registry.resolveAt (FieldPath.single "get")
        (Registry.pointer "" "site") = .ok (.object { name := "site" } {} []) := target
    rw [Client.convertOutput, resolved, ok_bind]
    dsimp only
    rw [Client.convertType_of_object rfl target List.not_mem_nil rfl]
    rfl
  unfold Client.convertFunction
  rw [lead]
  dsimp only
  rw [input, ok_bind]
  change (Client.convertOutput siteProject.registry index "MirrorGetOutput"
    (FieldPath.single "get") (Registry.pointer "" "site") >>= fun output => _) = _
  rw [output]
  rfl

/-- The conversion of the namespace succeeds. -/
theorem convert_mirrorNamespace :
    convert mirrorProject mirrorNamespace =
      some (.ok (mirrorDefinitions mirrorProject.index,
        Resource.schemaOf mirrorNamespace { name := "site" } [])) := by
  have usage : ∃ usage, UsageIndex.ofNamespace siteProject.registry mirrorNamespace =
      .ok usage := ⟨_, rfl⟩
  obtain ⟨usage, collected⟩ := usage
  have registered : mirrorProject.registry = siteProject.registry := rfl
  have functions : mirrorNamespace.functions = [(.read, mirrorFunction)] := rfl
  have client : Client.convertNamespace siteProject.registry mirrorProject.index mirrorNamespace =
      .ok (mirrorDefinitions mirrorProject.index) := by
    unfold Client.convertNamespace
    rw [functions, Client.convertFunctions]
    rw [mirrorNamespace, convertEntry_site, ok_bind]
    dsimp only
    rw [convertFunction_mirrorFunction, ok_bind, Client.convertFunctions, ok_bind]
    rfl
  rw [convert, registered, collected]
  dsimp only
  rw [ofNamespace_site rfl, client]
  rfl

/-- The run selects both namespaces. -/
theorem select_mirrorProject :
    ∃ first second, select mirrorProject .empty =
      [⟨siteNamespace "Site", first⟩, ⟨mirrorNamespace, second⟩] :=
  exists_slugs (managed_assignSlugs .empty mirrorDocument.normalize.namespaces)

/-- A run over the document succeeds. -/
theorem generate_mirrorProject :
    ∃ output, generate mirrorProject { source := "doc.json" } = some (.ok output) := by
  obtain ⟨first, second, selected⟩ := select_mirrorProject
  have shared : sharedModules (wantedTypes mirrorProject .empty) = [] := rfl
  have registered : mirrorProject.registry = siteProject.registry := rfl
  have site := fun before slug =>
    addNamespace_of_convert before slug (convert_of_site registered "Site")
  have mirror := fun before slug => addNamespace_of_convert before slug convert_mirrorNamespace
  have plain :
      arePlain (clientFile mirrorProject (siteNamespace "Site").outputModule
        { structs := [{ name := mirrorProject.index.classOf "site" }] }) ∧
      arePlain (resourceItems (siteSchema "Site") "") ∧
      arePlain (clientFile mirrorProject mirrorNamespace.outputModule
        (mirrorDefinitions mirrorProject.index)) ∧
      arePlain (resourceItems (Resource.schemaOf mirrorNamespace { name := "site" } []) "") := by
    decide +kernel
  -- slugs do not matter to modules, so that these are the same as with empty ones
  have modules : ∀ draft ∈ moduleDrafts (addFiles mirrorProject
      (addFiles mirrorProject {} ⟨siteNamespace "Site", ""⟩
        { structs := [{ name := mirrorProject.index.classOf "site" }] } (siteSchema "Site"))
      ⟨mirrorNamespace, ""⟩ (mirrorDefinitions mirrorProject.index)
        (Resource.schemaOf mirrorNamespace { name := "site" } [])).modules,
        arePlain draft.items :=
    List.all_eq_true.mp (by decide)
  have progressed : ∃ made, progress mirrorProject .empty = some made ∧
      ∀ draft ∈ made.drafts ++ moduleDrafts made.modules, arePlain draft.items := by
    obtain ⟨siteClient, siteResource, client, resource⟩ := plain
    unfold progress
    rw [selected, shared, List.foldlM_cons, site, Option.bind_eq_bind, Option.bind_some,
      List.foldlM_cons, mirror, Option.bind_eq_bind, Option.bind_some]
    refine ⟨_, rfl, List.forall_mem_append.mpr ⟨?_, modules⟩⟩
    exact plain_addFiles (plain_addFiles (List.forall_mem_nil _) siteClient siteResource first)
      client resource second
  obtain ⟨made, ran, allPlain⟩ := progressed
  obtain ⟨output, ran, -⟩ := exists_generate { source := "doc.json" } ran allPlain
  exact ⟨output, ran⟩

/-- The run has a client file for the namespace with the function. -/
theorem hasRoots_mirrorProject :
    ∃ stem, HasRoots mirrorProject .empty "mirror" stem (mirrorDefinitions mirrorProject.index)
      (Client.Request.managed mirrorNamespace).roots := by
  obtain ⟨first, second, selected⟩ := select_mirrorProject
  have member : (⟨mirrorNamespace, second⟩ : Titled) ∈ select mirrorProject .empty := by
    rw [selected]
    exact List.mem_cons_of_mem _ List.mem_cons_self
  have directory : mirrorNamespace.outputModule = "mirror" := by decide
  have hasRoots := HasRoots.managed member convert_mirrorNamespace
  rw [directory] at hasRoots
  exact ⟨_, hasRoots⟩

/-- That file declares the class of the entry, and imports it from the module of the other
namespace. -/
theorem not_bindsOnce_mirrorProject :
    ¬BindsOnce mirrorProject.index "mirror" (mirrorDefinitions mirrorProject.index) := by
  intro once
  have placed : mirrorProject.index.get? "site" =
      some ⟨(siteNamespace "Site").outputModule, mirrorProject.index.classOf "site", true⟩ := rfl
  have foreign : (siteNamespace "Site").outputModule ≠ "mirror" := by decide
  exact once.apart ⟨List.mem_cons_self, placed, foreign⟩ List.mem_cons_self

/-- The document can be written and read. -/
theorem sound_mirrorDocument : mirrorDocument.Sound := by
  have bare : ∀ declaration, Node.Sound (.object declaration {} []) := fun declaration =>
    Node.sound_object_iff.mpr ⟨⟨by decide, by decide, by decide, by decide⟩, List.forall_mem_nil _⟩
  have function : mirrorFunction.Sound :=
    ⟨List.forall_mem_singleton.mpr (bare _), fun _ impossible => nomatch impossible⟩
  have site : (siteNamespace "Site").All Function.Sound :=
    Namespace.all_iff.mpr (List.forall_mem_nil _)
  have mirror : mirrorNamespace.All Function.Sound :=
    Namespace.all_iff.mpr (List.forall_mem_singleton.mpr function)
  exact ⟨List.forall_mem_singleton.mpr (bare _),
    List.forall_mem_cons.mpr ⟨site, List.forall_mem_singleton.mpr mirror⟩⟩

/-- Not every client file of a run binds its names once, and no type that code uses without a
path: the second namespace of the entry declares the class once more and imports it too. -/
theorem not_client_bindings_mirrorDocument :
    ¬∀ (document : Document) (request : Request) (output : Output) (directory stem : String)
        (definitions : Definitions),
      document.Loaded →
      document.normalize.validate = .ok () →
      generate (.ofDocument document.normalize) request = some (.ok output) →
      IsClientFile (.ofDocument document.normalize) request.only directory stem definitions →
      ((clientFile (.ofDocument document.normalize) directory definitions).filterMap
          boundName?).Nodup ∧
        ∀ name ∈ unqualifiedTypes, name ∉
          (clientFile (.ofDocument document.normalize) directory definitions).filterMap
            boundName? := by
  intro distinct
  obtain ⟨output, ran⟩ := generate_mirrorProject
  obtain ⟨stem, hasRoots⟩ := hasRoots_mirrorProject
  have loaded : mirrorDocument.Loaded :=
    .read (Reading.readDocument_writeDocument .text sound_mirrorDocument)
  have isFile := isClientFile_iff.mpr ⟨_, hasRoots⟩
  obtain ⟨once, -⟩ := distinct mirrorDocument _ output _ _ _ loaded rfl ran isFile
  exact not_bindsOnce_mirrorProject ((nodup_boundNames_iff ..).mp once)

/-- A run writes its client files, and beside them resource files and files that declare modules
only. A client file declares one name for each of its entries, inputs and outputs and for each
object that is written out inside one, by the naming rule. The names that it binds are distinct
exactly if those that it declares are, if it imports every class from one module only and if it
declares none of the classes that it imports. Of the types that code uses without a path it binds
none but `bool`, `i64` and `f64`, and such a one exactly if it declares or imports an entry whose
class name the document declares so. -/
theorem client_bindings
    [lettering : Name.Lettering]
    (capitalizes : lettering.Capitalizes)
    (ran : generate (.ofDocument document) request = some (.ok output)) :
    (∀ file ∈ output.files,
      (∃ directory stem definitions roots,
        HasRoots (.ofDocument document) request.only directory stem definitions roots ∧
          file = rendered request ⟨.ofPart directory stem,
            clientFile (.ofDocument document) directory definitions⟩) ∨
      (∃ titled ∈ select (.ofDocument document) request.only,
        file.path =
          .ofPart titled.managed.outputModule (titled.managed.fileStem ++ "_resource")) ∨
      file.path.name = "mod.rs") ∧
    ∀ directory stem definitions roots,
      HasRoots (.ofDocument document) request.only directory stem definitions roots →
        rendered request ⟨.ofPart directory stem,
          clientFile (.ofDocument document) directory definitions⟩ ∈ output.files ∧
        AreNamesOf ⟨document.schemas⟩ (Project.ofDocument document).index roots
          definitions.names ∧
        (((clientFile (.ofDocument document) directory definitions).filterMap boundName?).Nodup ↔
          BindsOnce (Project.ofDocument document).index directory definitions) ∧
        ∀ name ∈ unqualifiedTypes,
          name ∈ (clientFile (.ofDocument document) directory definitions).filterMap boundName? ↔
            name ∈ primitiveTypes ∧ ∃ id, declaredClass? ⟨document.schemas⟩ id = some name ∧
              (.entry id ∈ roots ∨ ∃ shared,
                IsImported (Project.ofDocument document).index directory definitions.dependencies
                  id shared) := by
  refine ⟨fun file member => ?_, fun directory stem definitions roots hasRoots => ?_⟩
  · refine (cases_of_mem_files ran member).imp_left ?_
    rintro ⟨directory, stem, definitions, isFile, same⟩
    obtain ⟨roots, hasRoots⟩ := isClientFile_iff.mp isFile
    exact ⟨directory, stem, definitions, roots, hasRoots, same⟩
  · have written := (mem_files_iff ran).mpr
      ⟨_, rfl, .inl (.client (isClientFile_iff.mpr ⟨roots, hasRoots⟩))⟩
    have named := names_of_hasRoots hasRoots
    exact ⟨written, named, nodup_boundNames_iff _ directory definitions,
      fun name unqualified => mem_boundNames_iff capitalizes named unqualified⟩

/-- In a run over the document, the client file of the namespace with the function declares the
names of the entry and of what the function takes and returns, and does not bind them once. -/
theorem client_bindings_mirrorProject :
    ∃ output stem, generate mirrorProject { source := "doc.json" } = some (.ok output) ∧
      HasRoots mirrorProject .empty "mirror" stem (mirrorDefinitions mirrorProject.index)
        (Client.Request.managed mirrorNamespace).roots ∧
      AreNamesOf mirrorProject.registry mirrorProject.index
        (Client.Request.managed mirrorNamespace).roots
        (mirrorDefinitions mirrorProject.index).names ∧
      ¬((clientFile mirrorProject "mirror" (mirrorDefinitions mirrorProject.index)).filterMap
        boundName?).Nodup := by
  obtain ⟨output, ran⟩ := generate_mirrorProject
  obtain ⟨stem, hasRoots⟩ := hasRoots_mirrorProject
  obtain ⟨-, named, once, -⟩ :=
    (client_bindings Name.Lettering.capitalizes_standard ran).2 _ _ _ _ hasRoots
  exact ⟨output, stem, ran, hasRoots, named, fun distinct =>
    not_bindsOnce_mirrorProject (once.mp distinct)⟩

end Generation
end SchemaCompiler
