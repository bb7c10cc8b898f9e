/-!
# Lines of text

`splitLines` splits a text at its line ends, and `trimEnd` drops the blanks at the end
of a line.
-/

namespace SchemaCompiler
namespace Text

/-- A blank of any script. -/
def isWhitespace (character : Char) : Bool :=
  let code := character.toNat
  (0x09 ≤ code && code ≤ 0x0D) || (0x2000 ≤ code && code ≤ 0x200A) ||
    [0x20, 0x85, 0xA0, 0x1680, 0x2028, 0x2029, 0x202F, 0x205F, 0x3000].contains code

/-- The pieces of a text between line ends; a line end at the very end opens no
further piece. -/
def splitLines : List Char → List (List Char)
  | [] => []
  | '\n' :: rest => [] :: splitLines rest
  | character :: rest =>
      match splitLines rest with
      | line :: others => (character :: line) :: others
      | [] => [[character]]

/-- A line without the carriage return in front of its line end. -/
def dropReturn (line : List Char) : List Char :=
  match line.reverse with
  | '\r' :: rest => rest.reverse
  | _ => line

/-- The line without blanks at its end. -/
def trimEnd (line : List Char) : List Char :=
  (line.reverse.dropWhile isWhitespace).reverse

/-- Every escaped line end, a backslash and the letter n, becomes a line end. -/
def unescapeLines : List Char → List Char
  | '\\' :: 'n' :: rest => '\n' :: unescapeLines rest
  | character :: rest => character :: unescapeLines rest
  | [] => []

end Text
end SchemaCompiler
