import SchemaCompiler.Json.Value
import SchemaCompiler.Number.Shortest

/-!
# Writing JSON text

`Value.text` writes a value on one line. A floating point number without value
or bounds becomes null.
-/

namespace SchemaCompiler
namespace Json

/-- The four lower-case hexadecimal digits of a code unit. -/
def hexDigits (unit : Nat) : List Char :=
  let digits := Nat.toDigits 16 unit
  List.replicate (4 - digits.length) '0' ++ digits

/-- A character inside quotes: only quotes, backslashes and control characters are escaped. -/
def quotedCharacter (character : Char) : List Char :=
  if character = '"' then ['\\', '"']
  else if character = '\\' then ['\\', '\\']
  else if character = '\n' then ['\\', 'n']
  else if character = '\r' then ['\\', 'r']
  else if character = '\t' then ['\\', 't']
  else if character = '\u0008' then ['\\', 'b']
  else if character = '\u000C' then ['\\', 'f']
  else if character.toNat < 0x20 then ['\\', 'u'] ++ hexDigits character.toNat
  else [character]

/-- The text in quotes. -/
def quoted (text : String) : String :=
  String.ofList ('"' :: text.toList.flatMap quotedCharacter ++ ['"'])

/-- The number as text. -/
def Number.text : Number → String
  | .integer value => toString value
  | .float value => if value.isFinite then value.scientificText else "null"

namespace Value

mutual

/-- The value as text on one line. -/
def text : Value → String
  | .null => "null"
  | .bool true => "true"
  | .bool false => "false"
  | .number value => value.text
  | .string value => quoted value
  | .array items => "[" ++ String.intercalate "," (textItems items) ++ "]"
  | .object members => "\x7b" ++ String.intercalate "," (textMembers members) ++ "\x7d"

/-- The items of an array as texts. -/
def textItems : List Value → List String
  | [] => []
  | item :: rest => text item :: textItems rest

/-- The members of an object as texts. -/
def textMembers : List (String × Value) → List String
  | [] => []
  | (key, value) :: rest => (quoted key ++ ":" ++ text value) :: textMembers rest

end

end Value
end Json
end SchemaCompiler
