import SchemaCompiler.Schema.Document
import SchemaCompiler.Writing.Node

/-!
# Writing documents

The JSON form of functions, namespaces and documents. Entries and named functions
come in increasing order of their names.
-/

namespace SchemaCompiler
namespace Writing

open SchemaCompiler.Json (Value)
open SchemaCompiler.Schema

/-- JSON form of a function. -/
def writeFunction (function : Function) : Value :=
  .object ([("name", .string function.name)]
    ++ optionMember "method" .string function.method
    ++ [("uri", .string function.uri)]
    ++ listMember "path_params" writeNode function.pathParameters
    ++ listMember "query_params" writeNode function.queryParameters
    ++ optionMember "body" writeNode function.body
    ++ optionMember "output" writeNode function.output)

/-- JSON form of a table. -/
def writeTable (write : α → Value) (table : Order.Table α) : Value :=
  .object (table.entries.map fun entry => (entry.1, write entry.2))

/-- JSON form of a namespace. -/
def writeNamespace (managed : Namespace) : Value :=
  .object ([("name", .string managed.name), ("schema", .string managed.schema)]
    ++ optionMember "module" .string managed.moduleName
    ++ optionMember "create" writeFunction managed.create
    ++ optionMember "read" writeFunction managed.read
    ++ optionMember "update" writeFunction managed.update
    ++ optionMember "delete" writeFunction managed.delete
    ++ optionMember "list" writeFunction managed.list
    ++ if managed.others.entries.isEmpty then []
      else [("functions", writeTable writeFunction managed.others)])

/-- JSON form of a document. -/
def writeDocument (document : Document) : Value :=
  .object [("schemas", writeTable writeNode document.schemas),
    ("namespaces", .array (document.namespaces.map writeNamespace))]

end Writing
end SchemaCompiler
