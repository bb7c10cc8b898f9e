import SchemaCompiler.Yaml.Cursor

/-!
# Plain and quoted scalars

A plain scalar ends in front of a sign with a meaning of its own; a quoted one ends
with its quote. Both may go on over several lines: a single line end counts as a
blank, and of several line ends the first does not count.
-/

namespace SchemaCompiler
namespace Yaml

/-- Blanks and line ends between two words of a scalar. -/
inductive Spacing where
  | blanks (text : List Char)
  | lines (first others : List Char)
deriving Repr, DecidableEq

namespace Spacing

/-- Nothing between two characters. -/
def none : Spacing := .blanks []

/-- The spacing with one more blank, which counts only on the first line. -/
def addBlank (character : Char) : Spacing → Spacing
  | .blanks text => .blanks (text ++ [character])
  | .lines first others => .lines first others

/-- The spacing with one more line end. -/
def addBreak (character : Char) : Spacing → Spacing
  | .blanks _ => .lines [normalBreak character] []
  | .lines first others => .lines first (others ++ [normalBreak character])

/-- The spacing holds a line end. -/
def isLines : Spacing → Bool
  | .blanks _ => false
  | .lines _ _ => true

/-- What the spacing stands for inside the scalar. -/
def folded : Spacing → List Char
  | .blanks text => text
  | .lines ['\n'] [] => [' ']
  | .lines ['\n'] others => others
  | .lines first others => first ++ others

end Spacing

/-- A scalar that was read, with the cursor behind it. -/
structure LineScalar where
  text : List Char
  cursor : Cursor
  /-- Line ends follow the scalar. -/
  endsLines : Bool
deriving Repr

/-- Signs that end a plain scalar inside brackets. -/
def flowSigns : List Char := [',', '[', ']', '\x7b', '\x7d']

/-- A colon in front of the text is not allowed inside brackets. -/
def isStrayColon (text : List Char) : Bool :=
  match text with
  | next :: _ => next = '?' || flowSigns.contains next
  | [] => false

/-- Reads on in a plain scalar. `taken` is what was read, the latest first; `within`
is set inside a word; further lines of a block scalar begin at column `least` or
later. -/
def readPlain
    (isFlow : Bool)
    (least : Int)
    (taken : List Char)
    (spacing : Spacing)
    (within : Bool)
    (mark : Mark) : List Char → Option LineScalar
  | [] => some ⟨taken.reverse, ⟨[], mark⟩, spacing.isLines⟩
  | '\r' :: '\n' :: rest =>
      readPlain isFlow least taken (spacing.addBreak '\n') false (mark.nextLine 2) rest
  | character :: rest =>
      let done : LineScalar := ⟨taken.reverse, ⟨character :: rest, mark⟩, spacing.isLines⟩
      if isBreak character then
        readPlain isFlow least taken (spacing.addBreak character) false (mark.nextLine 1) rest
      else if isBlank character then
        if spacing.isLines && mark.column < least && character = '\t' then none
        else
          readPlain isFlow least taken (spacing.addBlank character) false (mark.forward 1) rest
      else if !within && ((!isFlow && mark.column < least) ||
          startsWithDocumentMark mark (character :: rest) || character = '#') then
        some done
      else if isFlow && character = ':' && isStrayColon rest then none
      else if (character = ':' && endsWord rest) ||
          (isFlow && flowSigns.contains character) then
        some done
      else
        readPlain isFlow least (character :: spacing.folded.reverse ++ taken) .none true
          (mark.forward 1) rest

/-- Where a reader of a quoted scalar is. -/
inductive QuotedMode where
  | text
  /-- Behind a backslash. -/
  | escape
  /-- In a character number with some digits left. -/
  | code (remaining value : Nat)
deriving Repr, DecidableEq

/-- The character that a letter behind a backslash stands for. -/
def escapedCharacter? : Char → Option Char
  | '0' => some '\u0000'
  | 'a' => some '\u0007'
  | 'b' => some '\u0008'
  | 't' | '\t' => some '\t'
  | 'n' => some '\n'
  | 'v' => some '\u000b'
  | 'f' => some '\u000c'
  | 'r' => some '\r'
  | 'e' => some '\u001b'
  | ' ' => some ' '
  | '"' => some '"'
  | '/' => some '/'
  | '\\' => some '\\'
  | 'N' => some '\u0085'
  | '_' => some '\u00a0'
  | 'L' => some '\u2028'
  | 'P' => some '\u2029'
  | _ => none

/-- Number of digits of the character number that a letter behind a backslash
announces. -/
def codeLength? : Char → Option Nat
  | 'x' => some 2
  | 'u' => some 4
  | 'U' => some 8
  | _ => none

/-- The character of a number. -/
def characterOf? (code : Nat) : Option Char :=
  if code.isValidChar then some (Char.ofNat code) else none

/-- Reads on in a scalar between `quote` signs; backslashes have a meaning between
double ones only. -/
def readQuoted
    (quote : Char)
    (mode : QuotedMode)
    (taken : List Char)
    (spacing : Spacing)
    (mark : Mark) : List Char → Option (List Char × Cursor)
  | [] => none
  | '\r' :: '\n' :: rest =>
      match mode with
      | .text => readQuoted quote .text taken (spacing.addBreak '\n') (mark.nextLine 2) rest
      | .escape => readQuoted quote .text taken (.lines [] []) (mark.nextLine 2) rest
      | .code _ _ => none
  | '\'' :: '\'' :: rest =>
      match mode with
      | .text =>
          if quote = '\'' then
            readQuoted quote .text ('\'' :: spacing.folded.reverse ++ taken) .none
              (mark.forward 2) rest
          else
            readQuoted quote .text ('\'' :: '\'' :: spacing.folded.reverse ++ taken) .none
              (mark.forward 2) rest
      | _ => none
  | character :: rest =>
      match mode with
      | .code remaining value =>
          match Text.hexDigit? character with
          | none => none
          | some digit =>
              if remaining ≤ 1 then
                match characterOf? (value * 16 + digit) with
                | none => none
                | some decoded =>
                    readQuoted quote .text (decoded :: taken) .none (mark.forward 1) rest
              else
                readQuoted quote (.code (remaining - 1) (value * 16 + digit)) taken .none
                  (mark.forward 1) rest
      | .escape =>
          if isBreak character then
            readQuoted quote .text taken (.lines [] []) (mark.nextLine 1) rest
          else
            match escapedCharacter? character, codeLength? character with
            | some decoded, _ =>
                readQuoted quote .text (decoded :: taken) .none (mark.forward 1) rest
            | none, some length =>
                readQuoted quote (.code length 0) taken .none (mark.forward 1) rest
            | none, none => none
      | .text =>
          if isBreak character then
            readQuoted quote .text taken (spacing.addBreak character) (mark.nextLine 1) rest
          else if isBlank character then
            readQuoted quote .text taken (spacing.addBlank character) (mark.forward 1) rest
          else if startsWithDocumentMark mark (character :: rest) then none
          else
            let joined := spacing.folded.reverse ++ taken
            if character = quote then some (joined.reverse, ⟨rest, mark.forward 1⟩)
            else if character = '\\' && quote = '"' then
              readQuoted quote .escape joined .none (mark.forward 1) rest
            else
              readQuoted quote .text (character :: joined) .none (mark.forward 1) rest

end Yaml
end SchemaCompiler
