/-!
# Words of an internal name

Internal names arrive in any spelling. `words` splits a name into lower-case
words at separators and at a capital that follows a small letter or a digit, so
that `vlanId`, `vlan-id` and `VLAN_ID` agree. Display names join the words
again: `snake` with underscores, `pascal` with capitals.

How a text is spelled in ASCII and how a word is written in a Pascal name is
given from outside, as a `Lettering`.
-/

namespace SchemaCompiler
namespace Name

/-- A spelling of texts in ASCII, and the form of words in a Pascal name. -/
class Lettering where
  spell : List Char → List Char
  capitalize : List Char → List Char

/-- A character that stays in a name: an ASCII letter, a digit or an underscore. -/
def isWordCharacter (character : Char) : Bool :=
  character.isAlphanum || character = '_'

/-- Runs of underscores become one underscore. -/
def collapse : List Char → List Char
  | [] => []
  | first :: rest =>
      match collapse rest with
      | '_' :: tail => if first = '_' then '_' :: tail else first :: '_' :: tail
      | other => first :: other

/-- The text without underscores at either end. -/
def trimUnderscores (text : List Char) : List Char :=
  ((text.dropWhile (· == '_')).reverse.dropWhile (· == '_')).reverse

/-- The text with everything outside `[A-Za-z0-9_]` turned into single underscores, none of them
at an end. -/
def cleaned (text : List Char) : List Char :=
  trimUnderscores (collapse (text.map fun character =>
    if isWordCharacter character then character else '_'))

/-- Two neighbours stand in one word unless one of them is an underscore or a
capital follows a small letter or a digit. -/
def sameWord (left right : Char) : Bool :=
  left ≠ '_' && right ≠ '_' && !(right.isUpper && (left.isLower || left.isDigit))

/-- Lower-case words of a clean text. -/
def splitWords (text : List Char) : List (List Char) :=
  ((text.splitBy sameWord).filter fun group => group ≠ ['_']).map fun group =>
    group.map Char.toLower

variable [Lettering]

/-- The name in clean ASCII. -/
def sanitize (name : String) : List Char :=
  if name = "" then [] else cleaned (Lettering.spell name.toList)

/-- Lower-case words of a name. -/
def words (name : String) : List (List Char) := splitWords (sanitize name)

/-- Display name in small letters with underscores between words. -/
def snake (name : String) : String :=
  String.ofList (['_'].intercalate (words name))

/-- Display name with every word capitalized and nothing between them. -/
def pascal (name : String) : String :=
  String.ofList ((words name).flatMap Lettering.capitalize)

end Name
end SchemaCompiler
