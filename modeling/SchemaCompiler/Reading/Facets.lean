import SchemaCompiler.Reading.Basic
import SchemaCompiler.Schema.Object

/-!
# Reading facets

Readers for the facets of each kind of node. Their members were kept until the
kind of the node was known, so every member is a whole value.
-/

namespace SchemaCompiler
namespace Reading

open SchemaCompiler.Json (Draft Value)
open SchemaCompiler.Number (Binary64)
open SchemaCompiler.Schema

/-- A way to take one kept member into the facets read so far. -/
abbrev MemberReader (π : Type) := π → String → Value → Except ReadError π

/-- Reads kept members by name. -/
def readMembers (member : MemberReader π) (parts : π) :
    List (String × Value) → Except ReadError π
  | [] => .ok parts
  | (key, value) :: rest => do
      let next ← member parts key value
      readMembers member next rest

/-- Facets of a truth value read so far. -/
structure BoolParts where
  defaultValue : Option (Option Bool) := none
  untyped : Option Bool := none

namespace BoolParts

/-- Takes one member. -/
def take (parts : BoolParts) (key : String) (value : Value) : Except ReadError BoolParts :=
  let draft := Draft.ofValue value
  match key with
  | "default" => do
      return { parts with
        defaultValue := ← fill parts.defaultValue key (readOption readBool draft) }
  | "opaque" => do return { parts with untyped := ← fill parts.untyped key (readBool draft) }
  | _ => .ok parts

/-- The facets, with defaults for what is missing. -/
def finish (parts : BoolParts) : BoolFacets where
  defaultValue := parts.defaultValue.join
  untyped := parts.untyped.getD false

end BoolParts

/-- Facets of a number read so far. -/
structure NumberParts (α : Type) where
  defaultValue : Option (Option α) := none
  min : Option (Option α) := none
  max : Option (Option α) := none
  values : Option (List α) := none

namespace NumberParts

/-- Takes one member whose numbers are read by `reader`. -/
def take (reader : Reader α) (parts : NumberParts α) (key : String) (value : Value) :
    Except ReadError (NumberParts α) :=
  let draft := Draft.ofValue value
  match key with
  | "default" => do
      return { parts with
        defaultValue := ← fill parts.defaultValue key (readOption reader draft) }
  | "min" => do return { parts with min := ← fill parts.min key (readOption reader draft) }
  | "max" => do return { parts with max := ← fill parts.max key (readOption reader draft) }
  | "values" => do return { parts with values := ← fill parts.values key (readList reader draft) }
  | _ => .ok parts

/-- The facets, with defaults for what is missing. -/
def finish (parts : NumberParts α) : NumberFacets α where
  defaultValue := parts.defaultValue.join
  min := parts.min.join
  max := parts.max.join
  values := parts.values.getD []

end NumberParts

/-- Policies of a hashing profile read so far. -/
structure HashParts where
  solo : Option Bool := none
  parentDepth : Option (Option UInt64) := none
  sibling : Option (Option String) := none

namespace HashParts

/-- Takes one field. -/
def take (parts : HashParts) (key : String) (draft : Draft) : Except ReadError HashParts :=
  match key with
  | "solo" => do return { parts with solo := ← fill parts.solo key (readBool draft) }
  | "with_parent_name" => do
      return { parts with
        parentDepth := ← fill parts.parentDepth key (readOption (readUnsigned "usize") draft) }
  | "with_param_value" => do
      return { parts with sibling := ← fill parts.sibling key (readOption readText draft) }
  | _ => ignoreField parts draft

/-- The active policies. -/
def policies (parts : HashParts) : List HashProfile :=
  (if parts.solo.getD false then [.solo] else [])
    ++ (parts.parentDepth.join.map .withAncestor).toList
    ++ (parts.sibling.join.map .withSibling).toList

/-- The profile of the only active policy. -/
def finish (parts : HashParts) : Except ReadError HashProfile :=
  match parts.policies with
  | [profile] => .ok profile
  | policies => .error (.schema (.invalidHashProfile policies.length))

end HashParts

/-- Reads a hashing profile. -/
def readHashing (draft : Draft) : Except ReadError HashProfile := do
  let parts ← readRecord .kept "struct RawHashProfile"
    ["solo", "with_parent_name", "with_param_value"] HashParts.take {} draft
  parts.finish

/-- Edits to values read so far. -/
structure PatchParts where
  add : Option (List String) := none
  remove : Option (List String) := none

namespace PatchParts

/-- Takes one field. -/
def take (parts : PatchParts) (key : String) (draft : Draft) : Except ReadError PatchParts :=
  match key with
  | "add" => do return { parts with add := ← fill parts.add key (readList readText draft) }
  | "remove" => do return { parts with remove := ← fill parts.remove key (readList readText draft) }
  | _ => ignoreField parts draft

end PatchParts

/-- Reads edits to values. -/
def readPatch (draft : Draft) : Except ReadError ValuesPatch := do
  let parts ← readRecord .kept "struct ValuesPatch" ["add", "remove"] PatchParts.take {} draft
  return { add := parts.add.getD [], remove := parts.remove.getD [] }

/-- Facets of a string read so far. -/
structure StringParts where
  defaultValue : Option (Option String) := none
  sensitive : Option Bool := none
  minLength : Option (Option UInt64) := none
  maxLength : Option (Option UInt64) := none
  values : Option (List String) := none
  regex : Option (Option String) := none
  hashing : Option HashProfile := none
  valuesPatch : Option (Option ValuesPatch) := none

namespace StringParts

/-- Takes one member. -/
def take (parts : StringParts) (key : String) (value : Value) : Except ReadError StringParts :=
  let draft := Draft.ofValue value
  match key with
  | "default" => do
      return { parts with
        defaultValue := ← fill parts.defaultValue key (readOption readText draft) }
  | "sensitive" => do return { parts with sensitive := ← fill parts.sensitive key (readBool draft) }
  | "min_length" => do
      return { parts with
        minLength := ← fill parts.minLength key (readOption (readUnsigned "u64") draft) }
  | "max_length" => do
      return { parts with
        maxLength := ← fill parts.maxLength key (readOption (readUnsigned "u64") draft) }
  | "values" => do return { parts with values := ← fill parts.values key (readList readText draft) }
  | "regex" => do return { parts with regex := ← fill parts.regex key (readOption readText draft) }
  | "hashing" => do return { parts with hashing := ← fill parts.hashing key (readHashing draft) }
  | "values_patch" => do
      return { parts with
        valuesPatch := ← fill parts.valuesPatch key (readOption readPatch draft) }
  | _ => .ok parts

/-- The facets, with defaults for what is missing. -/
def finish (parts : StringParts) : StringFacets where
  defaultValue := parts.defaultValue.join
  sensitive := parts.sensitive.getD false
  minLength := parts.minLength.join
  maxLength := parts.maxLength.join
  values := parts.values.getD []
  regex := parts.regex.join
  hashing := parts.hashing.getD .plaintext
  valuesPatch := parts.valuesPatch.join

end StringParts

/-- Facets of an array read so far. -/
structure ArrayParts where
  element : Option Node := none
  minItems : Option (Option UInt64) := none
  maxItems : Option (Option UInt64) := none
  unordered : Option Bool := none

namespace ArrayParts

/-- Takes one member other than the element. -/
def take (parts : ArrayParts) (key : String) (value : Value) : Except ReadError ArrayParts :=
  let draft := Draft.ofValue value
  match key with
  | "min_items" => do
      return { parts with
        minItems := ← fill parts.minItems key (readOption (readUnsigned "u64") draft) }
  | "max_items" => do
      return { parts with
        maxItems := ← fill parts.maxItems key (readOption (readUnsigned "u64") draft) }
  | "unordered" => do return { parts with unordered := ← fill parts.unordered key (readBool draft) }
  | _ => .ok parts

/-- The array node, which must have an element. -/
def finish (parts : ArrayParts) (declaration : Declaration) : Except ReadError Node :=
  match parts.element with
  | none => .error (.missingField "element")
  | some element =>
      let facets : ArrayFacets :=
        { minItems := parts.minItems.join
          maxItems := parts.maxItems.join
          unordered := parts.unordered.getD false }
      .ok (.array declaration facets element)

end ArrayParts

/-- Content of an object read so far. -/
structure ObjectParts where
  children : Option (List Node) := none
  groups : Option (List (List String)) := none
  className : Option (Option String) := none

namespace ObjectParts

/-- Takes one member other than the children. -/
def take (parts : ObjectParts) (key : String) (value : Value) : Except ReadError ObjectParts :=
  let draft := Draft.ofValue value
  match key with
  | "one_of" => do
      return { parts with groups := ← fill parts.groups key (readList (readList readText) draft) }
  | "class" => do
      return { parts with className := ← fill parts.className key (readOption readText draft) }
  | _ => .ok parts

/-- The object of the parts; children and groups must fit together. -/
def build (parts : ObjectParts) : Except SchemaError Object := do
  let object ← Object.ofChildren (parts.children.getD [])
  let grouped ← object.addGroups FieldPath.root (parts.groups.getD [])
  let className := parts.className.join.filter (· ≠ "")
  return { grouped with facets := { grouped.facets with className := className } }

/-- The object node. -/
def finish (parts : ObjectParts) (declaration : Declaration) : Except ReadError Node :=
  match parts.build with
  | .ok object => .ok (object.toNode declaration)
  | .error cause => .error (.schema cause)

end ObjectParts
end Reading
end SchemaCompiler
