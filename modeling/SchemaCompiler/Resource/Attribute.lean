import SchemaCompiler.Code.Documentation
import SchemaCompiler.Constraint.Validator
import SchemaCompiler.Usage.Exposure

/-!
# Resource attributes

An `Attribute` is one field of a resource: a plain value, a list of plain values,
or a group of attributes that is given once or as a list.
-/

namespace SchemaCompiler
namespace Resource

open SchemaCompiler.Code (Documentation Token)
open SchemaCompiler.Constraint (Literal Validator)
open SchemaCompiler.Schema (DefaultValue Exposure)

/-- What a plain list holds. -/
inductive ElementType where
  | bool
  | int64
  | float64
  | string
  /-- A value of any form. -/
  | json
  | list (element : ElementType)
deriving Repr, DecidableEq, Inhabited

namespace ElementType

/-- The type as code. -/
def tokens : ElementType → List Token
  | .bool => Token.path ["ElementType", "Bool"]
  | .int64 => Token.path ["ElementType", "Int64"]
  | .float64 => Token.path ["ElementType", "Float64"]
  | .string => Token.path ["ElementType", "String"]
  | .json => Token.path ["ElementType", "Json"]
  | .list element =>
      Token.path ["ElementType", "list"] ++ [Token.parenthesized element.tokens]

/-- Name of the type. -/
def text : ElementType → String
  | .bool => "Bool"
  | .int64 => "Int64"
  | .float64 => "Float64"
  | .string => "String"
  | .json => "Json"
  | .list element => s!"List({element.text})"

end ElementType

/-- Type of an attribute without attributes of its own. -/
inductive PlainType where
  | bool
  | int64
  | float64
  | string
  | list (element : ElementType)
deriving Repr, DecidableEq, Inhabited

/-- How often the attributes inside an attribute are given. -/
inductive Nesting where
  | single
  | list
deriving Repr, DecidableEq, Inhabited

/-- What every attribute states about itself. -/
structure AttributeFacts where
  name : String
  exposure : Exposure
  documentation : Documentation := {}
  isSensitive : Bool := false
  requiresReplace : Bool := false
  isUnordered : Bool := false
  validators : List Validator := []
  elementValidators : List Validator := []
deriving Repr, DecidableEq

/-- One field of a resource. -/
inductive Attribute where
  | plain (facts : AttributeFacts) (type : PlainType)
  | nested (facts : AttributeFacts) (nesting : Nesting) (attributes : List Attribute)
deriving Repr

namespace Attribute

/-- What an attribute states about itself. -/
def facts : Attribute → AttributeFacts
  | .plain facts _ => facts
  | .nested facts _ _ => facts

/-- The attribute with one more check. -/
def addValidator (validator : Validator) : Attribute → Attribute
  | .plain facts type => .plain { facts with validators := facts.validators ++ [validator] } type
  | .nested facts nesting attributes =>
      .nested { facts with validators := facts.validators ++ [validator] } nesting attributes

/-- Attributes inside an attribute. -/
def children : Attribute → List Attribute
  | .plain _ _ => []
  | .nested _ _ attributes => attributes

mutual

/-- Number of attributes in a tree. -/
def count : Attribute → Nat
  | .plain _ _ => 1
  | .nested _ _ attributes => countAll attributes + 1

/-- Number of attributes in a list of trees. -/
def countAll : List Attribute → Nat
  | [] => 0
  | first :: rest => count first + countAll rest

end

/-- A default as code. -/
def defaultTokens : DefaultValue → List Token
  | .bool value => [.identifier (toString value)]
  | .int value => (Literal.int value).tokens
  | .float value => (Literal.float value).tokens
  | .string value => [Token.string value]

/-- The calls that state an exposure. -/
def exposureTokens : Exposure → List Token
  | .required => Token.call "required" []
  | .optional => Token.call "optional" []
  | .computed => Token.call "computed" []
  | .optionalComputed value =>
      Token.call "optional" [] ++ Token.call "computed" []
        ++ Token.call "default_value" (defaultTokens value)

/-- A call without arguments, made only if a flag is set. -/
def flagTokens (flag : Bool) (name : String) : List Token :=
  if flag then Token.call name [] else []

/-- A call with a list of checks, made only if there are any. -/
def validatorTokens (name : String) (validators : List Validator) : List Token :=
  if validators.isEmpty then []
  else Token.call name [Token.bracketed (Validator.list validators)]

/-- The calls that state what is known about an attribute. -/
def factTokens (facts : AttributeFacts) : List Token :=
  exposureTokens facts.exposure
    ++ flagTokens facts.isSensitive "sensitive"
    ++ flagTokens facts.requiresReplace "requires_replace"
    ++ flagTokens facts.isUnordered "unordered"
    ++ validatorTokens "validators" facts.validators
    ++ validatorTokens "element_validators" facts.elementValidators
    ++ if facts.documentation.isEmpty then []
      else Token.call "description" [Token.string facts.documentation.text]

/-- The call that makes an attribute. -/
def constructor (function name : String) (arguments : List Token) : List Token :=
  Token.path ["Attribute", function]
    ++ [Token.parenthesized (Token.string name :: arguments)]

/-- The call that makes an attribute without attributes of its own. -/
def plainTokens (name : String) : PlainType → List Token
  | .bool => constructor "bool" name []
  | .int64 => constructor "int64" name []
  | .float64 => constructor "float64" name []
  | .string => constructor "string" name []
  | .list element => constructor "list" name (.alone ',' :: element.tokens)

/-- Name of the call that makes an attribute with attributes of its own. -/
def nestingName : Nesting → String
  | .single => "single_nested"
  | .list => "list_nested"

mutual

/-- The attribute as code. -/
def tokens : Attribute → List Token
  | .plain facts type => plainTokens facts.name type ++ factTokens facts
  | .nested facts nesting attributes =>
      constructor (nestingName nesting) facts.name
          [.alone ',', .identifier "vec", .alone '!', .bracketed (listTokens attributes)]
        ++ factTokens facts

/-- Attributes as code with commas between them. -/
def listTokens : List Attribute → List Token
  | [] => []
  | [last] => tokens last
  | first :: rest => tokens first ++ .alone ',' :: listTokens rest

end

end Attribute
end Resource
end SchemaCompiler
