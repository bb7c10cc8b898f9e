import SchemaCompiler.Text.Table

/-!
# Places in a YAML text

A `Cursor` is the text that is left together with the place where it begins.
Indentation is the column of a place, so every step keeps count of it.
-/

namespace SchemaCompiler
namespace Yaml

/-- A blank within a line. -/
def isBlank (character : Char) : Bool := character = ' ' || character = '\t'

/-- A line end. -/
def isBreak (character : Char) : Bool :=
  character = '\r' || character = '\n' || character = '\u0085' || character = '\u2028' ||
    character = '\u2029'

/-- The line end that a scalar holds for a line end of the text. -/
def normalBreak (character : Char) : Char :=
  if character = '\u2028' || character = '\u2029' then character else '\n'

/-- A character that a YAML text may hold. -/
def isAllowed (character : Char) : Bool :=
  let code := character.toNat
  code = 0x09 || code = 0x0A || code = 0x0D || (0x20 ≤ code && code ≤ 0x7E) || code = 0x85 ||
    (0xA0 ≤ code && code ≤ 0xD7FF) || (0xE000 ≤ code && code ≤ 0xFFFD) || 0x10000 ≤ code

/-- A character of the names of anchors and directives. -/
def isNameSign (character : Char) : Bool :=
  character.isAlphanum || character = '_' || character = '-'

/-- The text is at its end or goes on with a blank or a line end. -/
def endsWord : List Char → Bool
  | [] => true
  | character :: _ => isBlank character || isBreak character

/-- The text is at its end or goes on with a line end. -/
def endsLine : List Char → Bool
  | [] => true
  | character :: _ => isBreak character

/-- Number of characters, lines and columns in front of a place. -/
structure Mark where
  index : Nat := 0
  line : Nat := 0
  column : Nat := 0
deriving Repr, DecidableEq, Inhabited

namespace Mark

/-- The place some characters further on the same line. -/
def forward (mark : Mark) (count : Nat) : Mark :=
  { mark with index := mark.index + count, column := mark.column + count }

/-- The start of the next line, behind a line end of some characters. -/
def nextLine (mark : Mark) (count : Nat) : Mark :=
  ⟨mark.index + count, mark.line + 1, 0⟩

end Mark

/-- A text with the place where it begins. -/
structure Cursor where
  rest : List Char
  mark : Mark
deriving Repr, DecidableEq, Inhabited

namespace Cursor

/-- The cursor some characters further on the same line. -/
def forward (cursor : Cursor) (count : Nat) : Cursor :=
  ⟨cursor.rest.drop count, cursor.mark.forward count⟩

/-- The cursor behind the line end that it stands in front of, if it does. -/
def passBreak (cursor : Cursor) : Cursor :=
  match cursor.rest with
  | '\r' :: '\n' :: rest => ⟨rest, cursor.mark.nextLine 2⟩
  | character :: rest =>
      if isBreak character then ⟨rest, cursor.mark.nextLine 1⟩ else cursor
  | [] => cursor

/-- The characters with a property, and the cursor behind them. -/
def span (cursor : Cursor) (property : Char → Bool) : List Char × Cursor :=
  let taken := cursor.rest.takeWhile property
  (taken, cursor.forward taken.length)

/-- The cursor behind blanks. -/
def passBlanks (cursor : Cursor) : Cursor := (cursor.span isBlank).2

/-- The cursor behind a comment, if it stands in front of one. -/
def passComment (cursor : Cursor) : Cursor :=
  match cursor.rest with
  | '#' :: _ => (cursor.span fun character => !isBreak character).2
  | _ => cursor

end Cursor

/-- The line begins with a document mark made of the sign. -/
def startsWithMark (sign : Char) (mark : Mark) (text : List Char) : Bool :=
  mark.column = 0 && [sign, sign, sign].isPrefixOf text && endsWord (text.drop 3)

/-- The line begins with either document mark. -/
def startsWithDocumentMark (mark : Mark) (text : List Char) : Bool :=
  startsWithMark '-' mark text || startsWithMark '.' mark text

end Yaml
end SchemaCompiler
