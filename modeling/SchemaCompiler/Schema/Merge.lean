import SchemaCompiler.Schema.Object

/-!
# Merging overrides

An override only adds or replaces. Empty texts, missing options and unset flags
leave the base as it is, so an override that states nothing changes nothing.
-/

namespace SchemaCompiler
namespace Schema

/-- The text of the overlay, or of the base when that is empty. -/
def overlayText (base overlay : String) : String := if overlay = "" then base else overlay

/-- The option of the overlay, or of the base when that is missing. -/
def overlayOption (base overlay : Option α) : Option α := overlay.or base

/-- The text of the overlay, or of the base when that is missing or empty. -/
def overlayNonempty (base overlay : Option String) : Option String :=
  overlayOption base (overlay.filter (· ≠ ""))

/-- The values of the overlay, or of the base when there are none. -/
def overlayValues (base overlay : List α) : List α := if overlay.isEmpty then base else overlay

namespace Declaration

/-- The declaration with what an overlay states. -/
def merge (base overlay : Declaration) : Declaration where
  name := overlayText base.name overlay.name
  reference := overlayNonempty base.reference overlay.reference
  moduleName := overlayNonempty base.moduleName overlay.moduleName
  location := overlayOption base.location overlay.location
  description := overlayNonempty base.description overlay.description
  required := base.required || overlay.required
  readOnly := base.readOnly || overlay.readOnly
  replaceOnChange := base.replaceOnChange || overlay.replaceOnChange

end Declaration

namespace BoolFacets

/-- The facets with what an overlay states. -/
def merge (base overlay : BoolFacets) : BoolFacets where
  defaultValue := overlayOption base.defaultValue overlay.defaultValue
  untyped := base.untyped || overlay.untyped

end BoolFacets

namespace NumberFacets

/-- The facets with what an overlay states. -/
def merge (base overlay : NumberFacets α) : NumberFacets α where
  defaultValue := overlayOption base.defaultValue overlay.defaultValue
  min := overlayOption base.min overlay.min
  max := overlayOption base.max overlay.max
  values := overlayValues base.values overlay.values

end NumberFacets

namespace ValuesPatch

/-- The values without the removed ones and with each added one that is missing. -/
def apply (patch : ValuesPatch) (values : List String) : List String :=
  patch.add.foldl
    (fun values value => if values.contains value then values else values ++ [value])
    (values.filter fun value => !patch.remove.contains value)

end ValuesPatch

namespace StringFacets

/-- The values of a base after an overlay. -/
def mergeValues (base overlay : StringFacets) : List String :=
  if !overlay.values.isEmpty then overlay.values
  else
    match overlay.valuesPatch with
    | some patch => patch.apply base.values
    | none => base.values

/-- The facets with what an overlay states. -/
def merge (base overlay : StringFacets) : StringFacets where
  defaultValue := overlayOption base.defaultValue overlay.defaultValue
  sensitive := base.sensitive || overlay.sensitive
  minLength := overlayOption base.minLength overlay.minLength
  maxLength := overlayOption base.maxLength overlay.maxLength
  values := mergeValues base overlay
  regex := overlayNonempty base.regex overlay.regex
  hashing := if overlay.hashing.isPlaintext then base.hashing else overlay.hashing
  valuesPatch := base.valuesPatch

end StringFacets

namespace ArrayFacets

/-- The facets with what an overlay states. -/
def merge (base overlay : ArrayFacets) : ArrayFacets where
  minItems := overlayOption base.minItems overlay.minItems
  maxItems := overlayOption base.maxItems overlay.maxItems
  unordered := base.unordered || overlay.unordered

end ArrayFacets

namespace Scalar

/-- The scalar with what an overlay of the same kind states. -/
def merge? : Scalar → Scalar → Option Scalar
  | .bool base, .bool overlay => some (.bool (base.merge overlay))
  | .int base, .int overlay => some (.int (base.merge overlay))
  | .float base, .float overlay => some (.float (base.merge overlay))
  | .string base, .string overlay => some (.string (base.merge overlay))
  | _, _ => none

end Scalar

namespace Node

/-- The list with its first node of a name replaced. -/
def replaceFirst (name : String) (node : Node) : List Node → List Node
  | [] => []
  | first :: rest =>
      if first.name = name then node :: rest else first :: replaceFirst name node rest

mutual

/-- The base at `path` with what an overlay states. -/
def mergeAt (path : FieldPath) (base : Node) : Node → Except SchemaError Node
  | .scalar overlayDeclaration overlay =>
      match base with
      | .scalar declaration facets =>
          match facets.merge? overlay with
          | some merged => .ok (.scalar (declaration.merge overlayDeclaration) merged)
          | none => .error (.variantMismatch path base.kind overlay.kind)
      | _ => .error (.variantMismatch path base.kind overlay.kind)
  | .array overlayDeclaration overlay overlayElement =>
      match base with
      | .array declaration facets element => do
          let merged ← mergeAt path element overlayElement
          return .array (declaration.merge overlayDeclaration) (facets.merge overlay) merged
      | _ => .error (.variantMismatch path base.kind .array)
  | .object overlayDeclaration overlay overlayChildren =>
      match base with
      | .object declaration facets children => do
          let merged ← mergeChildren path children overlayChildren
          let className := overlayNonempty facets.className overlay.className
          let object : Object := ⟨merged, { facets with className := className }⟩
          let grouped ← object.addGroups path overlay.groups
          return grouped.toNode (declaration.merge overlayDeclaration)
      | _ => .error (.variantMismatch path base.kind .object)

/-- The nodes of a base with the nodes of an overlay, each of which is merged into
the first one of its name or added at the end. -/
def mergeChildren (path : FieldPath) (base : List Node) : List Node → Except SchemaError (List Node)
  | [] => .ok base
  | child :: rest =>
      match findChild? child.name base with
      | some existing => do
          let merged ← mergeAt (path.child child.name) existing child
          mergeChildren path (replaceFirst child.name merged base) rest
      | none => mergeChildren path (base ++ [child]) rest

end

/-- The base with what an overlay states, the base being the root of a tree. -/
def merge (base overlay : Node) : Except SchemaError Node :=
  base.mergeAt (FieldPath.ofName base.name) overlay

end Node
end Schema
end SchemaCompiler
