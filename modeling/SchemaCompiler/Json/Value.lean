import SchemaCompiler.Number.Binary64

/-!
# JSON values

A `Value` is a JSON value whose objects keep their members in order, repeated
keys included. A number without point and exponent that fits into 64 bits is an
integer; every other number is a floating point number.
-/

namespace SchemaCompiler
namespace Json

/-- A JSON number. -/
inductive Number where
  | integer (value : Int)
  | float (value : SchemaCompiler.Number.Binary64)
deriving Repr, DecidableEq, Inhabited

/-- A JSON value with its members in order. -/
inductive Value where
  | null
  | bool (value : Bool)
  | number (value : Number)
  | string (value : String)
  | array (items : List Value)
  | object (members : List (String × Value))
deriving Repr, Inhabited

namespace Value

/-- The integer as a value. -/
def integer (value : Int) : Value := .number (.integer value)

/-- The number of a list or text as a value. -/
def natural (value : Nat) : Value := .integer value

/-- The array of texts. -/
def strings (items : List String) : Value := .array (items.map .string)

/-- The value, or null for none. -/
def ofOption (value : Option Value) : Value := value.getD .null

/-- First member of an object under a key. -/
def member? (value : Value) (key : String) : Option Value :=
  match value with
  | .object members => members.lookup key
  | _ => none

/-- Members with every key once: a repeated key keeps its first place and its
last value. -/
def putMember (members : List (String × Value)) (key : String) (value : Value) :
    List (String × Value) :=
  match members with
  | [] => [(key, value)]
  | (present, old) :: rest =>
      if present = key then (present, value) :: rest
      else (present, old) :: putMember rest key value

mutual

/-- The value with every key once in each of its objects. -/
def distinct : Value → Value
  | .array items => .array (distinctItems items)
  | .object members => .object (distinctMembers [] members)
  | other => other

/-- The items with every key once in each of their objects. -/
def distinctItems : List Value → List Value
  | [] => []
  | item :: rest => distinct item :: distinctItems rest

/-- The members added to those already seen. -/
def distinctMembers (seen : List (String × Value)) :
    List (String × Value) → List (String × Value)
  | [] => seen
  | (key, value) :: rest => distinctMembers (putMember seen key (distinct value)) rest

end

end Value
end Json
end SchemaCompiler
