import SchemaCompiler.Client.Definition
import SchemaCompiler.Code.Expression

/-!
# Addresses

The address of a function is a text with names in braces. A name that a field of
the input fills is replaced by that field; everything else stays as written.
-/

namespace SchemaCompiler
namespace Client

open SchemaCompiler.Code (Argument Expression FieldReading escapeBraces argumentSign)

/-- Part of an address. -/
inductive AddressPart where
  | sign (character : Char)
  /-- A name between an opening brace and the next closing one. -/
  | bracketed (name : List Char)
deriving Repr, DecidableEq

/-- Parts of an address, where `opened` is what was read behind an opening brace. -/
def addressParts (opened : Option (List Char)) : List Char → List AddressPart
  | [] =>
      match opened with
      | none => []
      | some name => ('\x7b' :: name).map .sign
  | character :: rest =>
      match opened with
      | none =>
          if character = '\x7b' then addressParts (some []) rest
          else .sign character :: addressParts none rest
      | some name =>
          if character = '\x7d' then .bracketed name :: addressParts none rest
          else addressParts (some (name ++ [character])) rest

namespace AddressPart

/-- The parameter that fills a part. -/
def parameter? (parameters : List AddressParameter) : AddressPart → Option AddressParameter
  | .sign _ => none
  | .bracketed name =>
      parameters.find? fun parameter => parameter.placeholder = String.ofList name

/-- The part as written. -/
def written : AddressPart → List Char
  | .sign character => [character]
  | .bracketed name => '\x7b' :: name ++ ['\x7d']

/-- The part in a format template. -/
def template (parameters : List AddressParameter) (part : AddressPart) : List Char :=
  match part.parameter? parameters with
  | some _ => argumentSign
  | none => escapeBraces part.written

end AddressPart

namespace AddressParameter

/-- The field that fills a placeholder as an argument. -/
def argument (parameter : AddressParameter) : Argument where
  field := parameter.field
  reading := if parameter.isOptional then .shownOrEmpty else .itself

end AddressParameter

namespace Input

/-- Name of the constant that holds the address template. -/
def addressConstant : String := "URI_TEMPLATE"

/-- The address with its placeholders filled. -/
def addressExpression (input : Input) : Expression :=
  if input.addressParameters.isEmpty then .ownedConstant addressConstant
  else
    let parts := addressParts none input.address.toList
    .filled
      (String.ofList (parts.flatMap (AddressPart.template input.addressParameters)))
      (parts.filterMap fun part =>
        (part.parameter? input.addressParameters).map AddressParameter.argument)

end Input
end Client
end SchemaCompiler
