import SchemaCompiler.Json.Reader
import SchemaCompiler.Reading.Node
import SchemaCompiler.Schema.Document
import SchemaCompiler.Yaml.Content

/-!
# Reading documents

Functions, namespaces and documents are records of nodes and of one another.
Unknown fields are passed over, and missing ones have defaults.
-/

namespace SchemaCompiler
namespace Reading

open SchemaCompiler.Json (Draft Value)
open SchemaCompiler.Schema

/-- A sign that a method may hold. -/
def isMethodSign (character : Char) : Bool :=
  character.isAlphanum || "!#$%&'*+-.^_`|~".toList.contains character

/-- Reads a method, which is kept in upper case. -/
def readMethod (draft : Draft) : Except ReadError String := do
  let method := (← readText draft).toList.map Char.toUpper
  if method.isEmpty || !method.all isMethodSign then throw .invalidMethod
  return String.ofList method

/-- Fields of a function read so far. -/
structure FunctionParts where
  name : Option String := none
  method : Option (Option String) := none
  uri : Option String := none
  pathParameters : Option (List Node) := none
  queryParameters : Option (List Node) := none
  body : Option (Option Node) := none
  output : Option (Option Node) := none

namespace FunctionParts

/-- Names of the fields in their order. -/
def fields : List String :=
  ["name", "method", "uri", "path_params", "query_params", "body", "output"]

/-- Takes one field. -/
def take
    (origin : Origin)
    (parts : FunctionParts)
    (key : String)
    (draft : Draft) : Except ReadError FunctionParts :=
  match key with
  | "name" => do return { parts with name := ← fill parts.name key (readText draft) }
  | "method" => do
      return { parts with method := ← fill parts.method key (readOption readMethod draft) }
  | "uri" => do return { parts with uri := ← fill parts.uri key (readText draft) }
  | "path_params" => do
      return { parts with
        pathParameters := ← fill parts.pathParameters key (readList (readNode origin) draft) }
  | "query_params" => do
      return { parts with
        queryParameters := ← fill parts.queryParameters key (readList (readNode origin) draft) }
  | "body" => do
      return { parts with body := ← fill parts.body key (readOption (readNode origin) draft) }
  | "output" => do
      return { parts with output := ← fill parts.output key (readOption (readNode origin) draft) }
  | _ => ignoreField parts draft

/-- The function, with defaults for what is missing. -/
def finish (parts : FunctionParts) : Function where
  name := parts.name.getD ""
  method := parts.method.join
  uri := parts.uri.getD ""
  pathParameters := parts.pathParameters.getD []
  queryParameters := parts.queryParameters.getD []
  body := parts.body.join
  output := parts.output.join

end FunctionParts

/-- Reads a function. -/
def readFunction (origin : Origin) (draft : Draft) : Except ReadError Function := do
  let parts ← readRecord origin "struct Function" FunctionParts.fields
    (FunctionParts.take origin) {} draft
  return parts.finish

/-- Fields of a namespace read so far. -/
structure NamespaceParts where
  name : Option String := none
  schema : Option String := none
  moduleName : Option (Option String) := none
  create : Option (Option Function) := none
  read : Option (Option Function) := none
  update : Option (Option Function) := none
  delete : Option (Option Function) := none
  list : Option (Option Function) := none
  others : Option (List (String × Function)) := none

namespace NamespaceParts

/-- Names of the fields in their order. -/
def fields : List String :=
  ["name", "schema", "module", "create", "read", "update", "delete", "list", "functions"]

/-- Takes one field. -/
def take
    (origin : Origin)
    (parts : NamespaceParts)
    (key : String)
    (draft : Draft) : Except ReadError NamespaceParts :=
  let function := readOption (readFunction origin)
  match key with
  | "name" => do return { parts with name := ← fill parts.name key (readText draft) }
  | "schema" => do return { parts with schema := ← fill parts.schema key (readText draft) }
  | "module" => do
      return { parts with moduleName := ← fill parts.moduleName key (readOption readText draft) }
  | "create" => do return { parts with create := ← fill parts.create key (function draft) }
  | "read" => do return { parts with read := ← fill parts.read key (function draft) }
  | "update" => do return { parts with update := ← fill parts.update key (function draft) }
  | "delete" => do return { parts with delete := ← fill parts.delete key (function draft) }
  | "list" => do return { parts with list := ← fill parts.list key (function draft) }
  | "functions" => do
      return { parts with others := ← fill parts.others key (readMap (readFunction origin) draft) }
  | _ => ignoreField parts draft

/-- The namespace with the given name and defaults for what is missing. -/
def finish (parts : NamespaceParts) (name : String) : Namespace where
  name := name
  schema := parts.schema.getD ""
  moduleName := parts.moduleName.join
  create := parts.create.join
  read := parts.read.join
  update := parts.update.join
  delete := parts.delete.join
  list := parts.list.join
  others := .ofList (parts.others.getD [])

end NamespaceParts

/-- Reads a namespace, which must have a name. -/
def readNamespace (origin : Origin) (draft : Draft) : Except ReadError Namespace := do
  let parts ← readRecord origin "struct Namespace" NamespaceParts.fields
    (NamespaceParts.take origin) {} draft
  match parts.name with
  | some name => return parts.finish name
  | none =>
      match draft with
      | .array _ => throw (.wrongLength 0 "struct Namespace with 9 elements")
      | _ => throw (.missingField "name")

/-- Fields of a document read so far. -/
structure DocumentParts where
  schemas : Option (List (String × Node)) := none
  namespaces : Option (List Namespace) := none

namespace DocumentParts

/-- Takes one field. -/
def take
    (origin : Origin)
    (parts : DocumentParts)
    (key : String)
    (draft : Draft) : Except ReadError DocumentParts :=
  match key with
  | "schemas" => do
      return { parts with schemas := ← fill parts.schemas key (readMap (readNode origin) draft) }
  | "namespaces" => do
      return { parts with
        namespaces := ← fill parts.namespaces key (readList (readNamespace origin) draft) }
  | _ => ignoreField parts draft

end DocumentParts

/-- Reads a document. -/
def readDocument (origin : Origin) (draft : Draft) : Except ReadError Document := do
  let parts ← readRecord origin "struct SpecDocument" ["schemas", "namespaces"]
    (DocumentParts.take origin) {} draft
  return {
    schemas := .ofList (parts.schemas.getD [])
    namespaces := parts.namespaces.getD [] }

/-- Reads the whole of a JSON text. -/
def ofJsonText (reader : Origin → Reader α) (text : String) : Except ReadError α := do
  let (draft, rest) := Draft.read text
  let value ← reader .text draft
  ofFault (Draft.checkEnd rest)
  return value

/-- Reads the whole of a YAML text. -/
def ofYamlText (reader : Origin → Reader α) (text : String) : Except ReadError α :=
  match Yaml.draft? text with
  | some draft => reader .yaml draft
  | none => .error (.fault .malformed)

/-- Reads a JSON value that is at hand as a whole. -/
def ofJsonValue (reader : Origin → Reader α) (value : Value) : Except ReadError α :=
  reader .value (Draft.ofValue value)

end Reading
end SchemaCompiler
