import SchemaCompiler.Number.Shortest
import SchemaCompiler.Schema.Kind
import SchemaCompiler.Schema.Path

/-!
# Schema errors

A `SchemaError` says why a schema cannot be built, merged, resolved or rendered.
`message` words it, and `path?` is the place it was met at.
-/

namespace SchemaCompiler
namespace Schema

/-- Why a schema cannot be used. -/
inductive SchemaError where
  | duplicateField (path : FieldPath) (name : String)
  | variantMismatch (path : FieldPath) (base overlay : Kind)
  | invalidHashProfile (active : Nat)
  | nonFiniteNumber (path : FieldPath) (bound : String) (value : Number.Binary64)
  | unknownGroupMember (path : FieldPath) (member : String)
  | unknownPathParameter (function uri parameter : String)
  | unknownReference (path : FieldPath) (reference : String)
  | kindMismatch (path : FieldPath) (reference : String) (expected found : Kind)
  | chainedReference (path : FieldPath) (reference target : String)
  | referenceCycle (path : FieldPath) (reference : String)
  | rootNotObject (path : FieldPath) (found : Kind)
  | requiredReadOnly (path : FieldPath)
  | requiredOutputOnly (path : FieldPath)
  | inputNameCollision (function name : String) (first second : Location)
  | notEncrypted (path : FieldPath)
  | invalidAncestorDepth (path : FieldPath)
  | ancestorDepthExceeded (path : FieldPath) (depth : UInt64)
  | parentNotObject (path : FieldPath) (sibling : String)
  | siblingNotFound (path : FieldPath) (sibling : String)
  | siblingNotString (path : FieldPath) (sibling : String) (found : Kind)
deriving Repr, DecidableEq, Inhabited

namespace SchemaError

/-- The place an error was met at, if it has one. -/
def path? : SchemaError → Option FieldPath
  | .duplicateField path _
  | .variantMismatch path _ _
  | .nonFiniteNumber path _ _
  | .unknownGroupMember path _
  | .unknownReference path _
  | .kindMismatch path _ _ _
  | .chainedReference path _ _
  | .referenceCycle path _
  | .rootNotObject path _
  | .requiredReadOnly path
  | .requiredOutputOnly path
  | .notEncrypted path
  | .invalidAncestorDepth path
  | .ancestorDepthExceeded path _
  | .parentNotObject path _
  | .siblingNotFound path _
  | .siblingNotString path _ _ => some path
  | .invalidHashProfile _
  | .unknownPathParameter _ _ _
  | .inputNameCollision _ _ _ _ => none

/-- Wording of an error. -/
def message : SchemaError → String
  | .duplicateField path name => s!"duplicate field '{name}' in '{path.text}'"
  | .variantMismatch path base overlay =>
      s!"cannot merge a {overlay.text} override into {base.text} field '{path.text}'"
  | .invalidHashProfile active =>
      if active = 0 then "invalid hashing profile: no policy is active"
      else s!"invalid hashing profile: {active} policies are active, expected exactly one"
  | .nonFiniteNumber path bound value =>
      s!"field '{path.text}' has a non-finite {bound} ({value.positionalText})"
  | .unknownGroupMember path member =>
      s!"mutually exclusive group in '{path.text}' names unknown field '{member}'"
  | .unknownPathParameter function uri parameter =>
      s!"uri '{uri}' of function '{function}' uses undeclared path parameter '{parameter}'"
  | .unknownReference path reference => s!"unknown reference '{reference}' at '{path.text}'"
  | .kindMismatch path reference expected found =>
      s!"reference '{reference}' at '{path.text}' resolves to {found.text}, expected {expected.text}"
  | .chainedReference path reference target =>
      s!"reference '{reference}' at '{path.text}' points at an entry that itself references '{target}'"
  | .referenceCycle path reference =>
      s!"reference '{reference}' at '{path.text}' expands into itself"
  | .rootNotObject path found =>
      s!"schema root '{path.text}' must be an object, found {found.text}"
  | .requiredReadOnly path => s!"field '{path.text}' is required input but marked read-only"
  | .requiredOutputOnly path => s!"field '{path.text}' is required but never accepted as input"
  | .inputNameCollision function name first second =>
      s!"input '{name}' of function '{function}' is declared as both {first.text} and {second.text}"
  | .notEncrypted path => s!"field '{path.text}' has no active hashing profile"
  | .invalidAncestorDepth path => s!"hashing ancestor depth for '{path.text}' must be at least 1"
  | .ancestorDepthExceeded path depth =>
      s!"hashing ancestor depth {depth} exceeds the tree depth at '{path.text}'"
  | .parentNotObject path sibling =>
      s!"field '{path.text}' hashes with sibling '{sibling}' but its parent is not an object"
  | .siblingNotFound path sibling =>
      s!"field '{path.text}' hashes with sibling '{sibling}' which does not exist"
  | .siblingNotString path sibling found =>
      s!"field '{path.text}' hashes with sibling '{sibling}' which is {found.text}, expected string"

end SchemaError
end Schema
end SchemaCompiler
