/-!
# Kinds and locations

Every node of a schema has one of six kinds, and every parameter of an operation
travels in one of three places.
-/

namespace SchemaCompiler
namespace Schema

/-- What a node describes. -/
inductive Kind where
  | bool
  | int
  | float
  | string
  | array
  | object
deriving Repr, DecidableEq, Inhabited

namespace Kind

/-- Name of a kind. -/
def text : Kind → String
  | .bool => "bool"
  | .int => "int"
  | .float => "float"
  | .string => "string"
  | .array => "array"
  | .object => "object"

/-- All kinds in declaration order. -/
def all : List Kind := [.bool, .int, .float, .string, .array, .object]

/-- The kind of a name. -/
def ofText? (name : String) : Option Kind := all.find? fun kind => kind.text = name

theorem ofText?_text (kind : Kind) : ofText? kind.text = some kind := by
  cases kind <;> rfl

end Kind

/-- Where a parameter of an operation travels. -/
inductive Location where
  | path
  | query
  | body
deriving Repr, DecidableEq, Inhabited

namespace Location

/-- Name of a location. -/
def text : Location → String
  | .path => "path"
  | .query => "query"
  | .body => "body"

/-- All locations in declaration order. -/
def all : List Location := [.path, .query, .body]

/-- The location of a name. -/
def ofText? (name : String) : Option Location := all.find? fun location => location.text = name

theorem ofText?_text (location : Location) : ofText? location.text = some location := by
  cases location <;> rfl

end Location
end Schema
end SchemaCompiler
