import SchemaCompiler.Code.Token
import SchemaCompiler.Registry.Basic
import SchemaCompiler.Schema.Namespace

/-!
# Shared types

Every object entry is declared once, as a class in some module: that of the first
namespace that manages it, else its own, else the shared one. Files that use the
class from elsewhere import it.
-/

namespace SchemaCompiler
namespace Client

open SchemaCompiler.Code (Token)
open SchemaCompiler.Schema

/-- Module for entries that no namespace manages. -/
def sharedModule : String := "shared"

/-- Where an object entry is declared. -/
structure SharedType where
  moduleName : String
  className : String
  /-- Some namespace manages the entry. -/
  isManaged : Bool
deriving Repr, DecidableEq, Inhabited

/-- The declaration of every object entry. -/
structure TypeIndex where
  types : Order.Table SharedType
deriving Repr, Inhabited

/-- Class of an entry: the one it declares, or one made from its id. -/
def entryClass [Name.Lettering] (id : String) (facets : ObjectFacets) : String :=
  match facets.className with
  | some declared => Name.declaredName declared
  | none => Name.typeName id

/-- Module of an entry that no namespace manages. -/
def unmanagedModule [Name.Lettering] (declaration : Declaration) : String :=
  match declaration.moduleName.filter (· ≠ "") with
  | some name => Name.moduleName name
  | none => sharedModule

/-- Where an entry is declared, if it is an object. -/
def sharedType?
    [Name.Lettering]
    (namespaces : List Namespace)
    (id : String) : Node → Option SharedType
  | .object declaration facets _ =>
      match namespaces.find? fun managed => managed.schema = id with
      | some owner => some ⟨owner.outputModule, entryClass id facets, true⟩
      | none => some ⟨unmanagedModule declaration, entryClass id facets, false⟩
  | _ => none

namespace TypeIndex

/-- The declarations of the object entries of a registry. -/
def build [Name.Lettering] (registry : Registry) (namespaces : List Namespace) : TypeIndex where
  types := .ofList (registry.entries.entries.filterMap fun (id, entry) =>
    (sharedType? namespaces id entry).map fun shared => (id, shared))

/-- Where an id is declared. -/
def get? (index : TypeIndex) (id : String) : Option SharedType := index.types.get? id

/-- Class of an id. -/
def classOf [Name.Lettering] (index : TypeIndex) (id : String) : String :=
  match index.get? id with
  | some shared => shared.className
  | none => Name.typeName id

/-- Object entries that no namespace manages, with their declarations. -/
def unmanaged (index : TypeIndex) : List (String × SharedType) :=
  index.types.entries.filter fun (_, shared) => !shared.isManaged

end TypeIndex

/-- A class and the module it comes from. -/
structure Import where
  moduleName : String
  className : String
deriving Repr, DecidableEq, Inhabited

namespace Import

/-- Imports come by module and then by class. -/
def precedes (left right : Import) : Bool :=
  left.moduleName < right.moduleName ||
    (left.moduleName = right.moduleName && left.className ≤ right.className)

/-- Imports that a file of `current` needs for its dependencies, each once. -/
def ofDependencies (index : TypeIndex) (current : String) (dependencies : Order.NameSet) :
    List Import :=
  let declared := dependencies.names.filterMap index.get?
  let elsewhere := declared.filter fun shared => shared.moduleName ≠ current
  ((elsewhere.map fun shared => ⟨shared.moduleName, shared.className⟩).mergeSort precedes).eraseDups

/-- The import can be written into code. -/
def isWritable (required : Import) : Bool :=
  Name.isWritable required.moduleName && Name.isWritable required.className

/-- The import as code. -/
def tokens (required : Import) : List Token :=
  .identifier "use" :: Token.path ["crate", required.moduleName, required.className]
    ++ [.alone ';']

end Import
end Client
end SchemaCompiler
