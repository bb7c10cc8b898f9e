import SchemaCompiler.Text.UnprintableTable

/-!
# Quoted text

Quoted text escapes quotes, backslashes and line ends by a letter and characters
without a face of their own by number. The two spellings of this module differ in
the character zero: `quotedText` always writes a short escape, and `literalText`
avoids one in front of an octal digit.
-/

namespace SchemaCompiler
namespace Text

/-- A character by its number in hexadecimal. -/
def numberEscape (character : Char) : List Char :=
  ['\\', 'u', '\x7b'] ++ Nat.toDigits 16 character.toNat ++ ['\x7d']

/-- A character other than zero inside quotes. -/
def escapedCharacter (character : Char) : List Char :=
  if character = '\t' then ['\\', 't']
  else if character = '\r' then ['\\', 'r']
  else if character = '\n' then ['\\', 'n']
  else if character = '"' then ['\\', '"']
  else if character = '\\' then ['\\', '\\']
  else if 0x20 ≤ character.toNat ∧ character.toNat < 0x7F then [character]
  else if inRanges unprintableCharacters character then numberEscape character
  else [character]

/-- The characters of a text inside quotes. -/
def quotedCharacters : List Char → List Char
  | [] => []
  | character :: rest =>
      (if character.toNat = 0 then ['\\', '0'] else escapedCharacter character)
        ++ quotedCharacters rest

/-- The text in quotes. -/
def quotedText (text : String) : String :=
  String.ofList ('"' :: quotedCharacters text.toList ++ ['"'])

/-- The text begins with a digit that would extend a short escape of zero. -/
def startsWithOctal : List Char → Bool
  | first :: _ => '0' ≤ first && first ≤ '7'
  | [] => false

/-- The characters of a string literal. -/
def literalCharacters : List Char → List Char
  | [] => []
  | character :: rest =>
      (if character.toNat = 0 then
        if startsWithOctal rest then ['\\', 'x', '0', '0'] else ['\\', '0']
      else escapedCharacter character) ++ literalCharacters rest

/-- The text as a string literal of generated code. -/
def literalText (text : String) : String :=
  String.ofList ('"' :: literalCharacters text.toList ++ ['"'])

end Text
end SchemaCompiler
