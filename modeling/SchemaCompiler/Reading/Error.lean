import SchemaCompiler.Json.Draft
import SchemaCompiler.Schema.Error
import SchemaCompiler.Text.Quoted

/-!
# Reading errors

A `ReadError` says why a text is no schema: the text itself is broken, a value is
not what its place asks for, or the schema it spells out cannot be built.
-/

namespace SchemaCompiler
namespace Reading

open SchemaCompiler.Number (Binary64)

/-- What stands in a place. -/
inductive Found where
  | null
  | bool (value : Bool)
  | integer (value : Int)
  | float (value : Binary64)
  | string (value : String)
  | sequence
  | map
deriving Repr, DecidableEq, Inhabited

namespace Found

/-- Wording of what stands in a place. -/
def text : Found → String
  | .null => "null"
  | .bool value => s!"boolean `{value}`"
  | .integer value => s!"integer `{value}`"
  | .float value => s!"floating point `{value.scientificText}`"
  | .string value => s!"string {Text.quotedText value}"
  | .sequence => "sequence"
  | .map => "map"

/-- What a whole value is. -/
def ofValue : Json.Value → Found
  | .null => .null
  | .bool value => .bool value
  | .number (.integer value) => .integer value
  | .number (.float value) => .float value
  | .string value => .string value
  | .array _ => .sequence
  | .object _ => .map

/-- What a draft is, or the fault that a reader meets first. -/
def ofDraft : Json.Draft → Except Json.Fault Found
  | .null => .ok .null
  | .bool value => .ok (.bool value)
  | .number (.integer value) => .ok (.integer value)
  | .number (.float value) => .ok (.float value)
  | .string value => .ok (.string value)
  | .scalar text _ none => .ok (.string text)
  | .scalar _ _ (some value) => .ok (ofValue value)
  | .tagged _ inner => ofDraft inner
  | .array _ => .ok .sequence
  | .object _ => .ok .map
  | .deep inner => ofDraft inner
  | .broken reading _ => .error reading
  | .unusable fault => .error fault

end Found

/-- Why a text is no schema. -/
inductive ReadError where
  | fault (fault : Json.Fault)
  | wrongType (found : Found) (expected : String)
  | wrongValue (found : Found) (expected : String)
  | wrongLength (length : Nat) (expected : String)
  | missingField (name : String)
  | repeatedField (name : String)
  | unknownVariant (name : String) (known : List String)
  | invalidMethod
  | schema (error : Schema.SchemaError)
deriving Repr, DecidableEq, Inhabited

namespace ReadError

/-- Wording of an error. -/
def message : ReadError → String
  | .fault cause => cause.message
  | .wrongType found expected => s!"invalid type: {found.text}, expected {expected}"
  | .wrongValue found expected => s!"invalid value: {found.text}, expected {expected}"
  | .wrongLength length expected => s!"invalid length {length}, expected {expected}"
  | .missingField name => s!"missing field `{name}`"
  | .repeatedField name => s!"duplicate field `{name}`"
  | .unknownVariant name known =>
      let listed := String.intercalate ", " (known.map fun variant => s!"`{variant}`")
      s!"unknown variant `{name}`, expected one of {listed}"
  | .invalidMethod => "invalid HTTP method"
  | .schema error => error.message

/-- The error of a draft that is not what its place asks for. -/
def mismatch (draft : Json.Draft) (expected : String) : ReadError :=
  match Found.ofDraft draft with
  | .ok found => .wrongType found expected
  | .error cause => .fault cause

end ReadError
end Reading
end SchemaCompiler
