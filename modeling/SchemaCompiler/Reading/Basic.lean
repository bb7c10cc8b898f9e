import SchemaCompiler.Reading.Error
import SchemaCompiler.Yaml.ScalarValue

/-!
# Reading values

Readers for truth values, numbers, texts, lists and records. Each takes a draft and
reports the first thing in reading order that keeps it from a result.
-/

namespace SchemaCompiler
namespace Reading

open SchemaCompiler.Json (Draft Value Fault)
open SchemaCompiler.Number (Binary64)

/-- Where the values of a draft come from. -/
inductive Origin where
  /-- A JSON text that is read as it comes. -/
  | text
  /-- A JSON value that is at hand as a whole. -/
  | value
  /-- Part of a node that was kept until its type was known. -/
  | kept
  /-- A YAML text. -/
  | yaml
deriving Repr, DecidableEq, Inhabited

/-- A reader of drafts. -/
abbrev Reader (α : Type) := Draft → Except ReadError α

/-- The result of a text check as a reading result. -/
def ofFault (result : Except Fault α) : Except ReadError α :=
  match result with
  | .ok value => .ok value
  | .error fault => .error (.fault fault)

/-- Reads a text. -/
def readText (draft : Draft) : Except ReadError String :=
  match draft.untagged with
  | .string value => .ok value
  | .scalar text _ _ => .ok text
  | other => .error (.mismatch other "a string")

/-- Reads a truth value. -/
def readBool (draft : Draft) : Except ReadError Bool :=
  match draft.untagged with
  | .bool value => .ok value
  | .scalar text true value =>
      match Yaml.truthValue? text with
      | some truth => .ok truth
      | none => .error (.mismatch (.scalar text true value) "a boolean")
  | other => .error (.mismatch other "a boolean")

/-- The number of a draft. -/
def numberOf? : Draft → Option Json.Number
  | .number value => some value
  | _ => none

/-- Reads a signed integer. -/
def readSigned (draft : Draft) : Except ReadError Int64 :=
  match numberOf? draft with
  | some (.integer value) =>
      if -(Nat.pow 2 63 : Int) ≤ value ∧ value < (Nat.pow 2 63 : Int) then .ok (Int64.ofInt value)
      else .error (.wrongValue (.integer value) "i64")
  | _ => .error (.mismatch draft "i64")

/-- Reads an unsigned integer, called `expected` in errors. -/
def readUnsigned (expected : String) (draft : Draft) : Except ReadError UInt64 :=
  match numberOf? draft with
  | some (.integer value) =>
      if 0 ≤ value ∧ value < (Nat.pow 2 64 : Int) then .ok (UInt64.ofNat value.toNat)
      else .error (.wrongValue (.integer value) expected)
  | _ => .error (.mismatch draft expected)

/-- Reads a floating point number; an integer counts as one. -/
def readFloat (draft : Draft) : Except ReadError Binary64 :=
  match numberOf? draft with
  | some (.integer value) => .ok (Binary64.ofInt value)
  | some (.float value) => .ok value
  | none => .error (.mismatch draft "f64")

/-- Reads nothing from null and a value from anything else. -/
def readOption (reader : Reader α) : Reader (Option α)
  | .null => .ok none
  | .scalar _ true (some .null) => .ok none
  | other => do return some (← reader other)

/-- Reads every draft of a list. -/
def readEach (reader : Reader α) : List Draft → Except ReadError (List α)
  | [] => .ok []
  | first :: rest => do
      let value ← reader first
      let values ← readEach reader rest
      return value :: values

/-- Reads a list. -/
def readList (reader : Reader α) (draft : Draft) : Except ReadError (List α) :=
  match draft.untagged with
  | .array items => readEach reader items
  | .scalar "" true _ => .ok []
  | .deep (.array _) => .error (.fault .nestedTooDeep)
  | other => .error (.mismatch other "a sequence")

/-- Reads the members of a map, keys being texts. -/
def readEntries (reader : Reader α) : List (Draft × Draft) → Except ReadError (List (String × α))
  | [] => .ok []
  | (key, item) :: rest => do
      let name ← readText key
      let value ← reader item
      let entries ← readEntries reader rest
      return (name, value) :: entries

/-- Reads a map. -/
def readMap (reader : Reader α) (draft : Draft) : Except ReadError (List (String × α)) :=
  match draft.untagged with
  | .object members => readEntries reader members
  | .scalar "" true _ => .ok []
  | .deep (.object _) => .error (.fault .nestedTooDeep)
  | other => .error (.mismatch other "a map")

/-- Fills a slot that must not be filled twice. -/
def fill (slot : Option α) (name : String) (value : Except ReadError α) :
    Except ReadError (Option α) :=
  if slot.isSome then .error (.repeatedField name)
  else do return some (← value)

/-- A way to take one field of a record into the parts read so far. -/
abbrev FieldReader (π : Type) := π → String → Draft → Except ReadError π

/-- Passes over a field that no record knows. -/
def ignoreField (parts : π) (draft : Draft) : Except ReadError π := do
  ofFault draft.skip
  return parts

/-- Reads the fields of a record by name. -/
def readNamed (field : FieldReader π) (parts : π) : List (Draft × Draft) → Except ReadError π
  | [] => .ok parts
  | (key, item) :: rest => do
      let name ← readText key
      let next ← field parts name item
      readNamed field next rest

/-- Checks what is left of a list after all fields of a record were read. -/
def checkExcess (origin : Origin) (fieldCount length : Nat) (rest : List Draft) :
    Except ReadError Unit :=
  match rest with
  | [] => .ok ()
  | first :: _ =>
      match origin with
      | .value => .error (.wrongLength length "fewer elements in array")
      | .kept => .error (.wrongLength length s!"{fieldCount} elements in sequence")
      | _ =>
          match first with
          | .broken .trailingComma _ => .error (.fault .trailingComma)
          | .broken .endInList _ => .error (.fault .endInList)
          | _ => .error (.fault .trailingCharacters)

/-- Reads the fields of a record by position. -/
def readPlaced (origin : Origin) (field : FieldReader π) (fieldCount length : Nat) (parts : π) :
    List String → List Draft → Except ReadError π
  | [], rest => do
      checkExcess origin fieldCount length rest
      return parts
  | _ :: _, [] => .ok parts
  | name :: names, first :: rest => do
      let next ← field parts name first
      readPlaced origin field fieldCount length next names rest

/-- Reads a record from a map of its fields or from a list in the order of
`fields`. -/
def readRecord
    (origin : Origin)
    (expected : String)
    (fields : List String)
    (field : FieldReader π)
    (parts : π)
    (draft : Draft) : Except ReadError π :=
  match draft.untagged with
  | .object members => readNamed field parts members
  | .scalar "" true _ => .ok parts
  | .array items =>
      if origin = .yaml then .error (.mismatch draft expected)
      else readPlaced origin field fields.length items.length parts fields items
  | .deep (.object _) => .error (.fault .nestedTooDeep)
  | .deep (.array _) => .error (.fault .nestedTooDeep)
  | other => .error (.mismatch other expected)

/-- Reads the name of a location. -/
def locationOf (name : String) : Except ReadError Schema.Location :=
  match Schema.Location.ofText? name with
  | some location => .ok location
  | none => .error (.unknownVariant name (Schema.Location.all.map Schema.Location.text))

/-- Reads the content of a location written as a map, which must be null. -/
def readEmpty : Reader Unit
  | .null => .ok ()
  | other => .error (.mismatch other "unit")

/-- Reads what follows a tag that says everything: nothing or null. -/
def readNothing : Reader Unit
  | .scalar text true value =>
      if text.isEmpty || Yaml.isNull text then .ok ()
      else .error (.mismatch (.scalar text true value) "null")
  | other => .error (.mismatch other "null")

/-- Reads a location from its name, from a tag or from a map with nothing
under its name. -/
def readLocation (origin : Origin) (draft : Draft) : Except ReadError Schema.Location :=
  match draft with
  | .string name => locationOf name
  | .scalar text _ _ => locationOf text
  | .tagged name inner => do
      let location ← locationOf name
      readNothing inner
      return location
  | .object members =>
      match origin with
      | .yaml => .error (.mismatch draft "a YAML tag")
      | .text =>
          match members with
          | [] => .error (.fault .expectedValue)
          | (key, item) :: rest => do
              let location ← locationOf (← readText key)
              readEmpty item
              match rest with
              | [] => return location
              | (.broken .endInObject _, _) :: _ => .error (.fault .endInObject)
              | _ => .error (.fault .expectedValue)
      | _ =>
          match members with
          | [(key, item)] => do
              let location ← locationOf (← readText key)
              readEmpty item
              return location
          | _ => .error (.wrongValue .map "map with a single key")
  | .deep (.object _) => .error (.fault .nestedTooDeep)
  | other =>
      match origin, Found.ofDraft other with
      | _, .error fault => .error (.fault fault)
      | .text, .ok _ => .error (.fault .expectedValue)
      | _, .ok found => .error (.wrongType found "string or map")

end Reading
end SchemaCompiler
