import SchemaCompiler.Json.NumberText
import SchemaCompiler.Json.StringText

/-!
# Reading JSON text

`Draft.read` turns a text into the draft of its value and the text behind it.
Where the text stops making sense the draft is marked, and no text is left.
-/

namespace SchemaCompiler
namespace Json

/-- A blank of JSON. -/
def isBlank (character : Char) : Bool :=
  character = ' ' || character = '\n' || character = '\t' || character = '\r'

/-- The text without leading blanks. -/
def skipBlanks (text : List Char) : List Char := text.dropWhile isBlank

namespace Draft

/-- A draft and the text behind it, unless the text broke off. -/
abbrev Reading := Draft × Option (List Char)

/-- The text breaks off with one fault for readers and skippers. -/
def fault (fault : Fault) : Draft := .broken fault fault

/-- The rest of a word of which the first letter was read. -/
def readWord (value : Draft) : List Char → List Char → Reading
  | [], rest => (value, some rest)
  | _ :: _, [] => (fault .endInValue, none)
  | letter :: letters, character :: rest =>
      if letter = character then readWord value letters rest
      else (fault .expectedIdentifier, none)

/-- A number, its sign included in what was read. -/
def readNumberDraft (negative : Bool) (text : List Char) : Reading :=
  match skipNumber text, readNumber negative text with
  | .ok rest, .ok (value, _) => (.number value, some rest)
  | .ok rest, .error reading => (.unusable reading, some rest)
  | .error skipping, .ok _ => (fault skipping, none)
  | .error skipping, .error reading => (.broken reading skipping, none)

/-- A string behind its opening quote. -/
def readStringDraft (text : List Char) : Reading :=
  match skipString text, readString text with
  | .ok rest, .ok (value, _) => (.string value, some rest)
  | .ok rest, .error reading => (.unusable reading, some rest)
  | .error skipping, .ok _ => (fault skipping, none)
  | .error skipping, .error reading => (.broken reading skipping, none)

/-- Deepest level of arrays and objects that can be used. -/
def deepestLevel : Nat := 127

/-- The value, marked when it stands too deep. -/
def atLevel (level : Nat) (value : Draft) : Draft :=
  if deepestLevel < level then .deep value else value

mutual

/-- A value with `level` arrays and objects around it. -/
def readValue (fuel level : Nat) (text : List Char) : Reading :=
  match fuel with
  | 0 => (fault .endInValue, none)
  | fuel + 1 =>
      match skipBlanks text with
      | [] => (fault .endInValue, none)
      | 'n' :: rest => readWord .null ['u', 'l', 'l'] rest
      | 't' :: rest => readWord (.bool true) ['r', 'u', 'e'] rest
      | 'f' :: rest => readWord (.bool false) ['a', 'l', 's', 'e'] rest
      | '-' :: rest => readNumberDraft true rest
      | '"' :: rest => readStringDraft rest
      | '[' :: rest =>
          let (items, after) := readItems fuel (level + 1) true rest
          (atLevel (level + 1) (.array items), after)
      | '{' :: rest =>
          let (members, after) := readMembers fuel (level + 1) true rest
          (atLevel (level + 1) (.object members), after)
      | first :: rest =>
          if first.isDigit then readNumberDraft false (first :: rest)
          else (fault .expectedValue, none)

/-- The items of an array up to its end. -/
def readItems (fuel level : Nat) (isFirst : Bool) (text : List Char) :
    List Draft × Option (List Char) :=
  match fuel with
  | 0 => ([fault .endInList], none)
  | fuel + 1 =>
      let item (text : List Char) : List Draft × Option (List Char) :=
        match readValue fuel level text with
        | (value, none) => ([value], none)
        | (value, some rest) =>
            let (items, after) := readItems fuel level false rest
            (value :: items, after)
      match skipBlanks text with
      | [] => ([fault .endInList], none)
      | ']' :: rest => ([], some rest)
      | first :: rest =>
          if isFirst then item (first :: rest)
          else if first = ',' then
            match skipBlanks rest with
            | [] => ([fault .endInValue], none)
            | ']' :: _ => ([.broken .trailingComma .expectedValue], none)
            | other => item other
          else ([fault .expectedListEnd], none)

/-- The members of an object up to its end. -/
def readMembers (fuel level : Nat) (isFirst : Bool) (text : List Char) :
    List (Draft × Draft) × Option (List Char) :=
  match fuel with
  | 0 => ([(fault .endInObject, .null)], none)
  | fuel + 1 =>
      let member (text : List Char) : List (Draft × Draft) × Option (List Char) :=
        match readStringDraft text with
        | (key, none) => ([(key, .null)], none)
        | (key, some rest) =>
            match skipBlanks rest with
            | [] => ([(key, fault .endInObject)], none)
            | ':' :: behind =>
                match readValue fuel level behind with
                | (value, none) => ([(key, value)], none)
                | (value, some rest) =>
                    let (members, after) := readMembers fuel level false rest
                    ((key, value) :: members, after)
            | _ => ([(key, fault .expectedColon)], none)
      match skipBlanks text with
      | [] => ([(fault .endInObject, .null)], none)
      | '}' :: rest => ([], some rest)
      | first :: rest =>
          if isFirst then
            if first = '"' then member rest else ([(fault .keyNotString, .null)], none)
          else if first = ',' then
            match skipBlanks rest with
            | [] => ([(.broken .endInValue .endInObject, .null)], none)
            | '"' :: behind => member behind
            | '}' :: _ => ([(.broken .trailingComma .keyNotString, .null)], none)
            | _ => ([(fault .keyNotString, .null)], none)
          else ([(fault .expectedObjectEnd, .null)], none)

end

/-- The draft of the value at the start of a text and what follows it. -/
def read (text : String) : Reading :=
  let characters := text.toList
  readValue (2 * characters.length + 2) 0 characters

/-- Nothing but blanks may follow the value of a text. -/
def checkEnd (rest : Option (List Char)) : Except Fault Unit :=
  if (skipBlanks (rest.getD [])).isEmpty then .ok () else .error .trailingCharacters

end Draft

/-- The value of a whole text. -/
def Value.ofText (text : String) : Except Fault Value := do
  let (draft, rest) := Draft.read text
  let value ← draft.complete
  Draft.checkEnd rest
  return value

end Json
end SchemaCompiler
