import SchemaCompiler.Json.Value

/-!
# Drafts of a text

Reading a text gives a `Draft`: the values met so far, with a mark at the place
where the text stops making sense. Whoever uses a draft walks it in reading order
and so meets a fault only after everything in front of it. Some faults matter
only to a reader that needs the value and not to one that skips it; a draft keeps
the two apart.
-/

namespace SchemaCompiler
namespace Json

/-- What can be wrong with a text. -/
inductive Fault where
  | endInValue
  | endInList
  | endInObject
  | endInString
  | expectedValue
  | expectedIdentifier
  | expectedColon
  | expectedListEnd
  | expectedObjectEnd
  | trailingComma
  | trailingCharacters
  | keyNotString
  | invalidNumber
  | numberOutOfRange
  | invalidEscape
  | controlCharacter
  | loneSurrogate
  | unfinishedEscape
  | nestedTooDeep
  | malformed
deriving Repr, DecidableEq, Inhabited

namespace Fault

/-- The text ended too early. -/
def isEnd : Fault → Bool
  | .endInValue | .endInList | .endInObject | .endInString => true
  | _ => false

/-- Wording of a fault. -/
def message : Fault → String
  | .endInValue => "EOF while parsing a value"
  | .endInList => "EOF while parsing a list"
  | .endInObject => "EOF while parsing an object"
  | .endInString => "EOF while parsing a string"
  | .expectedValue => "expected value"
  | .expectedIdentifier => "expected ident"
  | .expectedColon => "expected `:`"
  | .expectedListEnd => "expected `,` or `]`"
  | .expectedObjectEnd => "expected `,` or `\x7d`"
  | .trailingComma => "trailing comma"
  | .trailingCharacters => "trailing characters"
  | .keyNotString => "key must be a string"
  | .invalidNumber => "invalid number"
  | .numberOutOfRange => "number out of range"
  | .invalidEscape => "invalid escape"
  | .controlCharacter => "control character (\\u0000-\\u001F) found while parsing a string"
  | .loneSurrogate => "lone leading surrogate in hex escape"
  | .unfinishedEscape => "unexpected end of hex escape"
  | .nestedTooDeep => "recursion limit exceeded"
  | .malformed => "malformed document"

end Fault

/-- What was read of a text. -/
inductive Draft where
  | null
  | bool (value : Bool)
  | number (value : Number)
  | string (value : String)
  /-- A scalar by its text, whether it stands without quotes, and the value it stands
  for, if it stands for one. -/
  | scalar (text : String) (isPlain : Bool) (value : Option Value)
  /-- A value with a tag in front of it. -/
  | tagged (tag : String) (inner : Draft)
  | array (items : List Draft)
  | object (members : List (Draft × Draft))
  /-- A value nested too deep to be used. -/
  | deep (inner : Draft)
  /-- The text stops making sense: what a reader meets and what a skipper meets. -/
  | broken (reading skipping : Fault)
  /-- A value that can only be skipped. -/
  | unusable (fault : Fault)
deriving Repr, Inhabited

namespace Draft

mutual

/-- The whole value, if the draft holds it without fault. -/
def complete : Draft → Except Fault Value
  | .null => .ok .null
  | .bool value => .ok (.bool value)
  | .number value => .ok (.number value)
  | .string value => .ok (.string value)
  | .scalar _ _ (some value) => .ok value
  | .scalar _ _ none => .error .malformed
  | .tagged _ _ => .error .malformed
  | .array items => do return .array (← completeItems items)
  | .object members => do return .object (← completeMembers members)
  | .deep _ => .error .nestedTooDeep
  | .broken reading _ => .error reading
  | .unusable fault => .error fault

/-- The whole values of a list. -/
def completeItems : List Draft → Except Fault (List Value)
  | [] => .ok []
  | item :: rest => do
      let value ← complete item
      let values ← completeItems rest
      return value :: values

/-- The whole members of an object. -/
def completeMembers : List (Draft × Draft) → Except Fault (List (String × Value))
  | [] => .ok []
  | (key, item) :: rest => do
      let name ← complete key
      let value ← complete item
      let members ← completeMembers rest
      match name with
      | .string name => return (name, value) :: members
      | _ => return members

end

mutual

/-- Passes over a value and reports what keeps a skipper from reaching its end. -/
def skip : Draft → Except Fault Unit
  | .array items => skipItems items
  | .object members => skipMembers members
  | .tagged _ inner => skip inner
  | .deep inner => skip inner
  | .broken _ skipping => .error skipping
  | _ => .ok ()

/-- Passes over the values of a list. -/
def skipItems : List Draft → Except Fault Unit
  | [] => .ok ()
  | item :: rest => do
      skip item
      skipItems rest

/-- Passes over the members of an object. -/
def skipMembers : List (Draft × Draft) → Except Fault Unit
  | [] => .ok ()
  | (key, item) :: rest => do
      skip key
      skip item
      skipMembers rest

end

/-- The draft without the tags in front of it. -/
def untagged : Draft → Draft
  | .tagged _ inner => untagged inner
  | other => other

mutual

/-- The draft of a value that is at hand as a whole. -/
def ofValue : Value → Draft
  | .null => .null
  | .bool value => .bool value
  | .number value => .number value
  | .string value => .string value
  | .array items => .array (ofItems items)
  | .object members => .object (ofMembers members)

/-- The drafts of a list of values. -/
def ofItems : List Value → List Draft
  | [] => []
  | item :: rest => ofValue item :: ofItems rest

/-- The drafts of the members of an object. -/
def ofMembers : List (String × Value) → List (Draft × Draft)
  | [] => []
  | (key, value) :: rest => (.string key, ofValue value) :: ofMembers rest

end

end Draft
end Json
end SchemaCompiler
