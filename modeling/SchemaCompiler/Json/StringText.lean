import SchemaCompiler.Json.Draft
import SchemaCompiler.Text.Table

/-!
# Strings in JSON text

`readString` reads a string behind its opening quote, and `skipString` finds its
end without asking whether its escapes make up characters.
-/

namespace SchemaCompiler
namespace Json

/-- Number of bytes of a text in UTF-8. -/
def byteCount (text : List Char) : Nat :=
  text.foldl (fun count character => count + character.utf8Size) 0

/-- The four hexadecimal digits of an escape. -/
def readHex (text : List Char) : Except Fault (Nat × List Char) :=
  let found := match text with
    | first :: second :: third :: fourth :: rest =>
        if [first, second, third, fourth].all fun digit => (Text.hexDigit? digit).isSome then
          some (Text.hexValue [first, second, third, fourth], rest)
        else none
    | _ => none
  match found with
  | some result => .ok result
  | none => .error (if byteCount (text.take 4) < 4 then .endInString else .invalidEscape)

/-- The code unit leads a pair. -/
def isLeadingSurrogate (unit : Nat) : Bool := 0xD800 ≤ unit && unit ≤ 0xDBFF

/-- The code unit closes a pair. -/
def isTrailingSurrogate (unit : Nat) : Bool := 0xDC00 ≤ unit && unit ≤ 0xDFFF

/-- The character of an escape by number, behind its `u`. -/
def readUnicodeEscape (text : List Char) : Except Fault (Char × List Char) := do
  let (unit, rest) ← readHex text
  if isTrailingSurrogate unit then .error .loneSurrogate
  else if isLeadingSurrogate unit then
    match rest with
    | [] => .error .endInString
    | '\\' :: [] => .error .endInString
    | '\\' :: 'u' :: after =>
        let (second, remaining) ← readHex after
        if isTrailingSurrogate second then
          let code := (unit - 0xD800) * 0x400 + (second - 0xDC00) + 0x10000
          return (Char.ofNat code, remaining)
        else .error .loneSurrogate
    | _ => .error .unfinishedEscape
  else return (Char.ofNat unit, rest)

/-- The character that a short escape stands for. -/
def shortEscape? : Char → Option Char
  | '"' => some '"'
  | '\\' => some '\\'
  | '/' => some '/'
  | 'b' => some '\x08'
  | 'f' => some '\x0c'
  | 'n' => some '\n'
  | 'r' => some '\r'
  | 't' => some '\t'
  | _ => none

/-- The characters of a string, at most `limit` of them, and the text behind its
closing quote. -/
def readCharacters (limit : Nat) (text : List Char) : Except Fault (List Char × List Char) :=
  match limit, text with
  | _, [] => .error .endInString
  | 0, _ => .error .endInString
  | _, '"' :: rest => .ok ([], rest)
  | _, '\\' :: [] => .error .endInString
  | limit + 1, '\\' :: 'u' :: rest => do
      let (character, remaining) ← readUnicodeEscape rest
      let (characters, after) ← readCharacters limit remaining
      return (character :: characters, after)
  | limit + 1, '\\' :: letter :: rest =>
      match shortEscape? letter with
      | none => .error .invalidEscape
      | some character => do
          let (characters, after) ← readCharacters limit rest
          return (character :: characters, after)
  | limit + 1, character :: rest =>
      if character.toNat < 0x20 then .error .controlCharacter
      else do
        let (characters, after) ← readCharacters limit rest
        return (character :: characters, after)

/-- A string behind its opening quote. -/
def readString (text : List Char) : Except Fault (String × List Char) := do
  let (characters, rest) ← readCharacters (text.length + 1) text
  return (String.ofList characters, rest)

/-- The text behind a string that is not needed, at most `limit` characters on. -/
def skipCharacters (limit : Nat) (text : List Char) : Except Fault (List Char) :=
  match limit, text with
  | _, [] => .error .endInString
  | 0, _ => .error .endInString
  | _, '"' :: rest => .ok rest
  | _, '\\' :: [] => .error .endInString
  | limit + 1, '\\' :: 'u' :: rest => do
      let (_, remaining) ← readHex rest
      skipCharacters limit remaining
  | limit + 1, '\\' :: letter :: rest =>
      if (shortEscape? letter).isSome then skipCharacters limit rest else .error .invalidEscape
  | limit + 1, character :: rest =>
      if character.toNat < 0x20 then .error .controlCharacter else skipCharacters limit rest

/-- The text behind a string that is not needed, behind its opening quote. -/
def skipString (text : List Char) : Except Fault (List Char) :=
  skipCharacters (text.length + 1) text

end Json
end SchemaCompiler
