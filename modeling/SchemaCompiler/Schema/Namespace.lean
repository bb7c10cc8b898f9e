import SchemaCompiler.Name.Identifier
import SchemaCompiler.Order.Table
import SchemaCompiler.Schema.Function

/-!
# Namespaces

A `Namespace` gathers the functions that manage one schema: five well-known ones
and any number of others by name.
-/

namespace SchemaCompiler
namespace Schema

/-- What a function does to the managed schema. -/
inductive OperationKind where
  | create
  | read
  | update
  | delete
  | list
  | other
deriving Repr, DecidableEq, Inhabited

namespace OperationKind

/-- Name of an operation kind. -/
def text : OperationKind → String
  | .create => "create"
  | .read => "read"
  | .update => "update"
  | .delete => "delete"
  | .list => "list"
  | .other => "other"

end OperationKind

/-- The functions exposed for one schema. -/
structure Namespace where
  name : String := ""
  schema : String := ""
  moduleName : Option String := none
  create : Option Function := none
  read : Option Function := none
  update : Option Function := none
  delete : Option Function := none
  list : Option Function := none
  others : Order.Table Function := .empty
deriving Repr, Inhabited

/-- The function with a name, its own or the given one. -/
def Function.named (name : String) (function : Function) : Function :=
  if function.name = "" then { function with name := name } else function

namespace Namespace

/-- The functions with their kinds: the well-known ones and then the others by
name. -/
def functions (managed : Namespace) : List (OperationKind × Function) :=
  (managed.create.toList.map fun function => (.create, function))
    ++ (managed.read.toList.map fun function => (.read, function))
    ++ (managed.update.toList.map fun function => (.update, function))
    ++ (managed.delete.toList.map fun function => (.delete, function))
    ++ (managed.list.toList.map fun function => (.list, function))
    ++ managed.others.entries.map fun (_, function) => (.other, function)

/-- The namespace with a name for every function: its own, else that of its slot. -/
def normalize (managed : Namespace) : Namespace :=
  { managed with
    create := managed.create.map (Function.named "create")
    read := managed.read.map (Function.named "read")
    update := managed.update.map (Function.named "update")
    delete := managed.delete.map (Function.named "delete")
    list := managed.list.map (Function.named "list")
    others := managed.others.mapValues Function.named }

/-- Module that the generated files go to. -/
def outputModule [Name.Lettering] (managed : Namespace) : String :=
  Name.moduleName ((managed.moduleName.filter (· ≠ "")).getD managed.name)

/-- Stem of the generated files. -/
def fileStem [Name.Lettering] (managed : Namespace) : String := Name.moduleName managed.name

/-- Checks every function. -/
def validate (managed : Namespace) : Except SchemaError Unit := do
  for (_, function) in managed.functions do
    function.validate

/-- The function of a base with what an overlay states. -/
def mergeFunction (base overlay : Option Function) : Except SchemaError (Option Function) :=
  match base, overlay with
  | some existing, some function => do return some (← existing.merge function)
  | none, some function => .ok (some function)
  | base, none => .ok base

/-- The named functions of a base with those of an overlay. -/
def mergeOthers (base : Order.Table Function) :
    List (String × Function) → Except SchemaError (Order.Table Function)
  | [] => .ok base
  | (key, function) :: rest => do
      let merged ← match base.get? key with
        | some existing => existing.merge function
        | none => .ok function
      mergeOthers (base.set key merged) rest

/-- The namespace with what an overlay states; it keeps its name. -/
def merge (base overlay : Namespace) : Except SchemaError Namespace := do
  let create ← mergeFunction base.create overlay.create
  let read ← mergeFunction base.read overlay.read
  let update ← mergeFunction base.update overlay.update
  let delete ← mergeFunction base.delete overlay.delete
  let list ← mergeFunction base.list overlay.list
  let others ← mergeOthers base.others overlay.others.entries
  return {
    name := base.name
    schema := overlayText base.schema overlay.schema
    moduleName := overlayNonempty base.moduleName overlay.moduleName
    create := create
    read := read
    update := update
    delete := delete
    list := list
    others := others }

end Namespace
end Schema
end SchemaCompiler
