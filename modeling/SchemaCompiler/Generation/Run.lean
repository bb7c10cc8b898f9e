import SchemaCompiler.Client.Conversion
import SchemaCompiler.Generation.FileItems
import SchemaCompiler.Generation.Statistics
import SchemaCompiler.Name.Slug
import SchemaCompiler.Registry.Graph
import SchemaCompiler.Schema.Document
import SchemaCompiler.Usage.Exposure

/-!
# Generation runs

A `Project` is a document made ready: its registry, its namespaces with their slugs
and the place of every shared type. A run writes a client file and a resource file
for every selected namespace, a client file for the shared types of every module,
and the files that declare the modules. What fails is left out with a warning.
-/

namespace SchemaCompiler
namespace Generation

open SchemaCompiler.Client (Definitions Import SharedType TypeIndex)
open SchemaCompiler.Code (Item Visibility)
open SchemaCompiler.Order (NameSet)
open SchemaCompiler.Resource (ResourceSchema)
open SchemaCompiler.Schema

/-- A namespace with its slug. -/
structure Titled where
  managed : Namespace
  slug : String
deriving Repr, Inhabited

/-- A document made ready for generation. -/
structure Project where
  registry : Registry
  namespaces : List Titled
  index : TypeIndex
deriving Repr, Inhabited

/-- The namespaces with slugs that are issued one after another. -/
def assignSlugs (ledger : Name.SlugLedger) : List Namespace → List Titled
  | [] => []
  | managed :: rest =>
      match ledger.assign? managed.name with
      | some (slug, next) => ⟨managed, slug⟩ :: assignSlugs next rest
      | none => ⟨managed, ""⟩ :: assignSlugs ledger rest

namespace Project

variable [Name.Lettering]

/-- The document made ready. -/
def ofDocument (document : Document) : Project where
  registry := ⟨document.schemas⟩
  namespaces := assignSlugs .empty document.namespaces
  index := .build ⟨document.schemas⟩ document.namespaces

/-- Ids that the entry of a namespace refers to by name. -/
def dependencies (project : Project) (managed : Namespace) : Except SchemaError NameSet :=
  match project.registry.get? managed.schema with
  | some root => project.registry.dependencies root
  | none => .ok .empty

end Project

/-- What a run is asked for. -/
structure Request where
  /-- Where the document came from, for the head of every file. -/
  source : String
  visibility : Visibility := .everyone
  /-- Names of the namespaces to write; no name selects all of them. -/
  only : NameSet := .empty

/-- Place of a file in the output directory. -/
structure FilePath where
  directory : Option String
  name : String
deriving Repr, DecidableEq, Inhabited

namespace FilePath

/-- Names on the way to the file. -/
def components (path : FilePath) : List String := path.directory.toList ++ [path.name]

/-- The path with slashes. -/
def text (path : FilePath) : String := String.intercalate "/" path.components

/-- The file of a module part. -/
def ofPart (directory stem : String) : FilePath := ⟨some directory, stem ++ ".rs"⟩

end FilePath

/-- A file before its text is laid out. -/
structure Draft where
  path : FilePath
  items : List Item
deriving Repr, Inhabited

/-- A file of the output. -/
structure GeneratedFile where
  path : FilePath
  text : String
deriving Repr, DecidableEq, Inhabited

/-- Files and counts of a run. -/
structure Output where
  files : List GeneratedFile
  statistics : Statistics
deriving Repr, DecidableEq, Inhabited

/-- Parts of the modules written so far. -/
abbrev Modules := Order.Table NameSet

namespace Modules

/-- The modules with one more part. -/
def addPart (modules : Modules) (name stem : String) : Modules :=
  modules.set name (((modules.get? name).getD .empty).insert stem)

end Modules

/-- What a run has made so far. -/
structure Progress where
  drafts : List Draft := []
  modules : Modules := .empty
  statistics : Statistics := {}
deriving Inhabited

namespace Progress

/-- The progress with one more part of a module. -/
def addPart (progress : Progress) (directory stem : String) (items : List Item) : Progress :=
  { progress with
    drafts := progress.drafts ++ [⟨.ofPart directory stem, items⟩]
    modules := progress.modules.addPart directory stem }

/-- The progress with a warning. -/
def warn (progress : Progress) (warning : Warning) : Progress :=
  { progress with
    statistics := { progress.statistics with
      warnings := progress.statistics.warnings ++ [warning] } }

end Progress

variable [Name.Lettering]

/-- Definitions and resource schema of a namespace; `none` if the conversion of the
schema never ends. -/
def convert (project : Project) (managed : Namespace) :
    Option (Except SchemaError (Definitions × ResourceSchema)) :=
  match UsageIndex.ofNamespace project.registry managed with
  | .error cause => some (.error cause)
  | .ok usage => do
      match ← Resource.ofNamespace project.registry usage managed with
      | .error cause => return .error cause
      | .ok schema =>
          let definitions := Client.convertNamespace project.registry project.index managed
          return definitions.map fun definitions => (definitions, schema)

/-- Items of a client file in a module. -/
def clientFile (project : Project) (moduleName : String) (definitions : Definitions) :
    List Item :=
  clientItems definitions (Import.ofDependencies project.index moduleName definitions.dependencies)

/-- The warning that a namespace failed. -/
def failureOf (managed : Namespace) (error : SchemaError) : Warning :=
  .namespaceFailed managed.name
    s!"namespace '{managed.name}' (schema '{managed.schema}'): {error.message}"

/-- The progress with the files of a namespace. -/
def addFiles
    (project : Project)
    (progress : Progress)
    (titled : Titled)
    (definitions : Definitions)
    (schema : ResourceSchema) : Progress :=
  let managed := titled.managed
  let directory := managed.outputModule
  let counted := { progress with
    statistics := progress.statistics.addNamespace definitions schema }
  let withClient := counted.addPart directory (managed.fileStem ++ "_client")
    (clientFile project directory definitions)
  withClient.addPart directory (managed.fileStem ++ "_resource") (resourceItems schema titled.slug)

/-- The progress with the files of a namespace, or with a warning that it failed;
`none` if the conversion of the namespace never ends. -/
def addNamespace (project : Project) (progress : Progress) (titled : Titled) :
    Option Progress := do
  match ← convert project titled.managed with
  | .error error => return progress.warn (failureOf titled.managed error)
  | .ok (definitions, schema) => return addFiles project progress titled definitions schema

/-- Ids that the selected namespaces need, directly or through others. -/
def wantedIds (project : Project) (selected : List Titled) : NameSet :=
  let roots := selected.flatMap fun titled =>
    titled.managed.schema
      :: titled.managed.functions.flatMap fun (_, function) =>
        function.nodes.flatMap Node.mentions
  project.registry.reachable (NameSet.ofList roots).names

/-- Shared types by module, each module with its ids in order. -/
def sharedModules (types : List (String × SharedType)) : List (String × List String) :=
  let modules := NameSet.ofList (types.map fun (_, shared) => shared.moduleName)
  modules.names.map fun name =>
    (name, (types.filter fun (_, shared) => shared.moduleName = name).map Prod.fst)

/-- The definitions of shared entries, with a warning for each that failed. -/
def convertShared (project : Project) : List String → Definitions × List Warning
  | [] => (.empty, [])
  | id :: rest =>
      let (others, warnings) := convertShared project rest
      match Client.convertEntry project.registry project.index id with
      | .ok definitions => (definitions ++ others, warnings)
      | .error error => (others, .sharedTypeFailed id error.message :: warnings)

/-- Stem of the file with the shared types of a module. -/
def sharedStem : String := "shared_client"

/-- The progress with the shared types of a module. -/
def addShared
    (project : Project)
    (progress : Progress)
    (shared : String × List String) : Progress :=
  let (definitions, warnings) := convertShared project shared.2
  let warned := warnings.foldl Progress.warn progress
  if definitions.structs.isEmpty then warned
  else
    let counted := { warned with statistics := warned.statistics.addShared definitions }
    counted.addPart shared.1 sharedStem (clientFile project shared.1 definitions)

/-- The file that declares the parts of a module. -/
def moduleDraft (name : String) (stems : NameSet) : Draft where
  path := .ofPart name "mod"
  items :=
    (stems.names.map fun stem => .part false stem)
      ++ stems.names.map fun stem => .use true [stem] .everything

/-- The files that declare modules; without modules there are none. -/
def moduleDrafts (modules : Modules) : List Draft :=
  (modules.entries.map fun (name, stems) => moduleDraft name stems)
    ++ if modules.entries.isEmpty then []
      else [⟨⟨none, "mod.rs"⟩, modules.names.map fun name => .part true name⟩]

/-- The selected namespaces. -/
def select (project : Project) (only : NameSet) : List Titled :=
  if only.isEmpty then project.namespaces
  else project.namespaces.filter fun titled => only.contains titled.managed.name

/-- Warnings about selected names that no namespace has. -/
def unknownNames (project : Project) (only : NameSet) : List Warning :=
  (only.names.filter fun name =>
    !project.namespaces.any fun titled => titled.managed.name = name).map .unknownNamespace

/-- Shared types that a run writes. -/
def wantedTypes (project : Project) (only : NameSet) : List (String × SharedType) :=
  let unmanaged := project.index.unmanaged
  if only.isEmpty then unmanaged
  else
    let wanted := wantedIds project (select project only)
    unmanaged.filter fun (id, _) => wanted.contains id

/-- What a run knows before it makes anything. -/
def start (project : Project) (only : NameSet) : Progress where
  statistics := {
    cycles := project.registry.cycles
    warnings := unknownNames project only }

/-- Everything a run makes, before any text is laid out; `none` if it never ends. -/
def progress (project : Project) (only : NameSet) : Option Progress := do
  let managed ← (select project only).foldlM (addNamespace project) (start project only)
  return (sharedModules (wantedTypes project only)).foldl (addShared project) managed

/-- Text in front of the code of every file. -/
def header (source : String) : String :=
  "//! AUTO-GENERATED CODE - DO NOT EDIT!\n//!\n//! Source: " ++ source
    ++ "\n//! Generated by `appliance-codegen` 0.4.0\n\n"

/-- Files come by the names on the way to them. -/
def precedes (left right : Draft) : Bool :=
  !List.lex right.path.components left.path.components (· < ·)

/-- The files of a run, or a class that has to be written and is no identifier. -/
def output (request : Request) (made : Progress) : Except String Output :=
  let drafts := made.drafts ++ moduleDrafts made.modules
  match drafts.findSome? fun draft => Code.unwritable? draft.items with
  | some name => .error name
  | none => .ok {
      files := (drafts.mergeSort precedes).map fun draft =>
        ⟨draft.path, header request.source ++ Code.fileText request.visibility draft.items⟩
      statistics := made.statistics }

/-- Runs a generation; `none` if it never ends. -/
def generate (project : Project) (request : Request) : Option (Except String Output) := do
  let made ← progress project request.only
  return output request made

end Generation
end SchemaCompiler
