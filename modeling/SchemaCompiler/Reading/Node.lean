import SchemaCompiler.Reading.Facets

/-!
# Reading nodes

A node is a map. Its declaration is read as the members come; all other members
are kept, the type is looked up among them, and the facets of that type are read
from what was kept. Nodes inside a node are read from kept values.
-/

namespace SchemaCompiler
namespace Reading

open SchemaCompiler.Json (Draft Value)
open SchemaCompiler.Schema

/-- Members of a declaration read so far. -/
structure DeclarationParts where
  name : Option String := none
  reference : Option (Option String) := none
  moduleName : Option (Option String) := none
  location : Option (Option Location) := none
  description : Option (Option String) := none
  required : Option Bool := none
  readOnly : Option Bool := none
  replaceOnChange : Option Bool := none

namespace DeclarationParts

/-- Names of the members of a declaration. -/
def fields : List String :=
  ["name", "ref", "module", "in", "description", "required", "read_only", "replace_on_change"]

/-- Takes one member. -/
def take
    (origin : Origin)
    (parts : DeclarationParts)
    (key : String)
    (draft : Draft) : Except ReadError DeclarationParts :=
  match key with
  | "name" => do return { parts with name := ← fill parts.name key (readText draft) }
  | "ref" => do
      return { parts with reference := ← fill parts.reference key (readOption readText draft) }
  | "module" => do
      return { parts with moduleName := ← fill parts.moduleName key (readOption readText draft) }
  | "in" => do
      return { parts with
        location := ← fill parts.location key (readOption (readLocation origin) draft) }
  | "description" => do
      return { parts with description := ← fill parts.description key (readOption readText draft) }
  | "required" => do return { parts with required := ← fill parts.required key (readBool draft) }
  | "read_only" => do return { parts with readOnly := ← fill parts.readOnly key (readBool draft) }
  | "replace_on_change" => do
      return { parts with replaceOnChange := ← fill parts.replaceOnChange key (readBool draft) }
  | _ => .ok parts

/-- The declaration, with defaults for what is missing. -/
def finish (parts : DeclarationParts) : Declaration where
  name := parts.name.getD ""
  reference := parts.reference.join
  moduleName := parts.moduleName.join
  location := parts.location.join
  description := parts.description.join
  required := parts.required.getD false
  readOnly := parts.readOnly.getD false
  replaceOnChange := parts.replaceOnChange.getD false

/-- Takes one kept member. -/
def takeValue (parts : DeclarationParts) (key : String) (value : Value) :
    Except ReadError DeclarationParts :=
  if fields.contains key then take .kept parts key (Draft.ofValue value) else .ok parts

end DeclarationParts

/-- The kind that a type member names. -/
def readKind : Value → Except ReadError Kind
  | .string name =>
      match Kind.ofText? name with
      | some kind => .ok kind
      | none => .error (.unknownVariant name (Kind.all.map Kind.text))
  | .number (.integer index) =>
      if index < 0 then .error (.wrongType (.integer index) "variant identifier")
      else
        match Kind.all[index.toNat]? with
        | some kind => .ok kind
        | none => .error (.wrongValue (.integer index) "variant index 0 <= i < 6")
  | other => .error (.wrongType (Found.ofValue other) "variant identifier")

/-- The kind of a node, which its only type member names. -/
def kindOf (found : Option Kind) : List (String × Value) → Except ReadError Kind
  | [] =>
      match found with
      | some kind => .ok kind
      | none => .error (.missingField "type")
  | (key, value) :: rest =>
      if key = "type" then
        match found with
        | some _ => .error (.repeatedField "type")
        | none => do kindOf (some (← readKind value)) rest
      else kindOf found rest

mutual

/-- Reads a node from a kept value. -/
def readKeptNode : Value → Except ReadError Node
  | .object members => do
      let parts ← readMembers DeclarationParts.takeValue {} members
      readFacets parts.finish members
  | other => .error (.wrongType (Found.ofValue other) "struct Node")

/-- Reads the facets of a node from its kept members. -/
def readFacets (declaration : Declaration) (members : List (String × Value)) :
    Except ReadError Node := do
  match ← kindOf none members with
  | .bool => do
      let parts ← readMembers BoolParts.take {} members
      return .scalar declaration (.bool parts.finish)
  | .int => do
      let parts ← readMembers (NumberParts.take readSigned) {} members
      return .scalar declaration (.int parts.finish)
  | .float => do
      let parts ← readMembers (NumberParts.take readFloat) {} members
      return .scalar declaration (.float parts.finish)
  | .string => do
      let parts ← readMembers StringParts.take {} members
      return .scalar declaration (.string parts.finish)
  | .array => do
      let parts ← readArrayMembers {} members
      parts.finish declaration
  | .object => do
      let parts ← readObjectMembers {} members
      parts.finish declaration

/-- Reads the kept members of an array. -/
def readArrayMembers (parts : ArrayParts) : List (String × Value) → Except ReadError ArrayParts
  | [] => .ok parts
  | (key, value) :: rest => do
      let next ← if key = "element" then do
          let element ← fill parts.element key (readKeptNode value)
          pure { parts with element := element }
        else parts.take key value
      readArrayMembers next rest

/-- Reads the kept members of an object. -/
def readObjectMembers (parts : ObjectParts) :
    List (String × Value) → Except ReadError ObjectParts
  | [] => .ok parts
  | (key, value) :: rest => do
      let next ← if key = "params" then do
          let children ← fill parts.children key (readKeptNodes value)
          pure { parts with children := children }
        else parts.take key value
      readObjectMembers next rest

/-- Reads a list of nodes from a kept value. -/
def readKeptNodes : Value → Except ReadError (List Node)
  | .array items => readKeptItems items
  | other => .error (.wrongType (Found.ofValue other) "a sequence")

/-- Reads nodes from kept values. -/
def readKeptItems : List Value → Except ReadError (List Node)
  | [] => .ok []
  | first :: rest => do
      let node ← readKeptNode first
      let nodes ← readKeptItems rest
      return node :: nodes

end

/-- Reads the members of a node as they come: its declaration and what is kept. -/
def readNodeMembers (origin : Origin) (parts : DeclarationParts) :
    List (Draft × Draft) → Except ReadError (DeclarationParts × List (String × Value))
  | [] => .ok (parts, [])
  | (key, item) :: rest => do
      let name ← readText key
      if DeclarationParts.fields.contains name then
        let next ← parts.take origin name item
        readNodeMembers origin next rest
      else
        let value ← ofFault item.complete
        let (finished, kept) ← readNodeMembers origin parts rest
        return (finished, (name, value) :: kept)

/-- Reads a node. -/
def readNode (origin : Origin) (draft : Draft) : Except ReadError Node :=
  match draft.untagged with
  | .object members => do
      let (parts, kept) ← readNodeMembers origin {} members
      readFacets parts.finish kept
  | .scalar "" true _ => readFacets {} []
  | .deep (.object _) => .error (.fault .nestedTooDeep)
  | other => .error (.mismatch other "struct Node")

end Reading
end SchemaCompiler
