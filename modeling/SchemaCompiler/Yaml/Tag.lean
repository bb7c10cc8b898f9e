import SchemaCompiler.Text.Numeral
import SchemaCompiler.Yaml.Cursor
import SchemaCompiler.Yaml.Token

/-!
# Tags and directives

A tag names the kind of what follows it, either as a whole between angle brackets
or by a handle and a suffix. A directive in front of a document gives its version
or what a handle stands for.
-/

namespace SchemaCompiler
namespace Yaml

/-- A sign of a tag; inside angle brackets lists of signs are tags as well. -/
def isTagSign (isWhole : Bool) (character : Char) : Bool :=
  isNameSign character || ";/?:@&=+$.%!~*'()".toList.contains character ||
    (isWhole && [',', '[', ']'].contains character)

/-- Number of bytes of a character by its first byte. -/
def encodedLength? (byte : Nat) : Option Nat :=
  if byte < 0x80 then some 1
  else if byte < 0xC0 then none
  else if byte < 0xE0 then some 2
  else if byte < 0xF0 then some 3
  else if byte < 0xF8 then some 4
  else none

/-- The byte of a percent sign with two digits, and the text behind it. -/
def escapedByte? : List Char → Option (Nat × List Char)
  | '%' :: high :: low :: rest =>
      match Text.hexDigit? high, Text.hexDigit? low with
      | some high, some low => some (high * 16 + low, rest)
      | _, _ => none
  | _ => none

/-- Adds bytes that continue a character to its first bits. -/
def continueCharacter (code : Nat) : Nat → List Char → Option (Nat × List Char)
  | 0, text => some (code, text)
  | count + 1, text =>
      match escapedByte? text with
      | some (byte, rest) =>
          if 0x80 ≤ byte ∧ byte < 0xC0 then continueCharacter (code * 64 + byte % 64) count rest
          else none
      | none => none

/-- The character written as bytes with percent signs, and the text behind it. -/
def escapedSign? (text : List Char) : Option (Char × List Char) :=
  match escapedByte? text with
  | none => none
  | some (byte, rest) =>
      match encodedLength? byte with
      | none => none
      | some length =>
          let bits := if length = 1 then byte else byte % Nat.pow 2 (7 - length)
          match continueCharacter bits (length - 1) rest with
          | some (code, after) => some (Char.ofNat code, after)
          | none => none

/-- Replaces the percent signs of a tag; each character takes at least one sign. -/
def decodeTag : Nat → List Char → Option (List Char)
  | 0, _ => some []
  | _ + 1, [] => some []
  | fuel + 1, '%' :: rest =>
      match escapedSign? ('%' :: rest) with
      | some (character, after) => (decodeTag fuel after).map (character :: ·)
      | none => none
  | fuel + 1, character :: rest => (decodeTag fuel rest).map (character :: ·)

/-- The signs of a tag and the cursor behind them. -/
def readTagSigns (isWhole : Bool) (cursor : Cursor) : Option (List Char × Cursor) :=
  let (signs, after) := cursor.span (isTagSign isWhole)
  (decodeTag signs.length signs).map fun decoded => (decoded, after)

/-- The signs between two exclamation marks, or behind the only one, with the marks;
the flag tells which. -/
def readHandle (cursor : Cursor) : List Char × Bool × Cursor :=
  let (name, after) := (cursor.forward 1).span isNameSign
  match after.rest with
  | '!' :: _ => ('!' :: name ++ ['!'], true, after.forward 1)
  | _ => ('!' :: name, false, after)

/-- A tag without its lead may be followed by a comma only inside brackets. -/
def endsTag (isFlow : Bool) (text : List Char) : Bool :=
  endsWord text || (isFlow && text.head? = some ',')

/-- Reads a tag in angle brackets, from the cursor at its exclamation mark. -/
def readWholeTag (cursor : Cursor) : Option (TagName × Cursor) := do
  let (signs, after) ← readTagSigns true (cursor.forward 2)
  if signs.isEmpty || after.rest.head? ≠ some '>' then none
  else some (⟨"", String.ofList signs⟩, after.forward 1)

/-- Reads a tag with a handle; an exclamation mark alone is a tag of its own. -/
def readShortTag (cursor : Cursor) : Option (TagName × Cursor) := do
  let (handle, isNamed, behind) := readHandle cursor
  let (signs, after) ← readTagSigns false behind
  if isNamed then
    if signs.isEmpty then none
    else some (⟨String.ofList handle, String.ofList signs⟩, after)
  else
    let suffix := handle.drop 1 ++ signs
    if suffix.isEmpty then some (⟨"", "!"⟩, after)
    else some (⟨"!", String.ofList suffix⟩, after)

/-- Reads a tag from the cursor at its exclamation mark. -/
def readTag (isFlow : Bool) (cursor : Cursor) : Option (TagName × Cursor) := do
  let (name, after) ← match cursor.rest with
    | '!' :: '<' :: _ => readWholeTag cursor
    | _ => readShortTag cursor
  if endsTag isFlow after.rest then some (name, after) else none

/-- Reads the name of an anchor or alias from the cursor at its sign. -/
def readAnchorName (cursor : Cursor) : Option (String × Cursor) :=
  let (name, after) := (cursor.forward 1).span isNameSign
  let ends := endsWord after.rest ||
    match after.rest with
    | next :: _ => ['?', ':', ',', ']', '\x7d', '%', '@', '\x60'].contains next
    | [] => true
  if name.isEmpty || !ends then none else some (String.ofList name, after)

/-- Reads a number of at most nine digits. -/
def readVersionNumber (cursor : Cursor) : Option (Nat × Cursor) :=
  let (digits, after) := cursor.span Char.isDigit
  if 9 < digits.length then none
  else (Text.numeral? 10 digits).map fun value => (value, after)

/-- Reads a version such as 1.2. -/
def readVersion (cursor : Cursor) : Option (Token × Cursor) := do
  let (major, point) ← readVersionNumber cursor.passBlanks
  if point.rest.head? ≠ some '.' then none
  else
    let (minor, after) ← readVersionNumber (point.forward 1)
    some (.version major minor, after)

/-- Reads a handle and what it stands for. -/
def readTagDirective (cursor : Cursor) : Option (Token × Cursor) := do
  let start := cursor.passBlanks
  if start.rest.head? ≠ some '!' then none
  else
    let (handle, isNamed, behind) := readHandle start
    let blanks := behind.passBlanks
    if (!isNamed && handle ≠ ['!']) || blanks.mark = behind.mark then none
    else
      let (signs, after) ← readTagSigns true blanks
      if signs.isEmpty || !endsWord after.rest then none
      else some (.tagDirective (String.ofList handle) (String.ofList signs), after)

/-- Reads a directive with its line, from the cursor at its percent sign. -/
def readDirective (cursor : Cursor) : Option (Token × Cursor) := do
  let (name, behind) := (cursor.forward 1).span isNameSign
  let (token, after) ← match String.ofList name with
    | "YAML" => if endsWord behind.rest then readVersion behind else none
    | "TAG" => if endsWord behind.rest then readTagDirective behind else none
    | _ => none
  let last := after.passBlanks.passComment
  if endsLine last.rest then some (token, last.passBreak) else none

end Yaml
end SchemaCompiler
