import SchemaCompiler.Yaml.BlockScalar
import SchemaCompiler.Yaml.LineScalar
import SchemaCompiler.Yaml.Tag

/-!
# Reading tokens

A `TokenStream` is a text read up to a cursor, with the tokens so far. It knows
the indentations that are open, the brackets that are open and, for each of them,
the token that turns out to be a key if a colon follows on the same line. A colon
puts the sign of the key, and the start of its map, in front of that token.
-/

namespace SchemaCompiler
namespace Yaml

/-- A token that a colon may turn into a key. -/
structure KeyStart where
  /-- Number of tokens in front of it. -/
  tokenIndex : Nat
  mark : Mark
  /-- Nothing but a key can stand there. -/
  isRequired : Bool
deriving Repr, DecidableEq

/-- A text read up to a cursor. -/
structure TokenStream where
  cursor : Cursor
  tokens : Array Token := #[]
  /-- Column of the innermost block. -/
  indent : Int := -1
  /-- Columns of the blocks around it, innermost first. -/
  outerIndents : List Int := []
  /-- A block or a key may begin here. -/
  keyAllowed : Bool := true
  keyStart : Option KeyStart := none
  /-- What may be a key in front of each open bracket, innermost first. -/
  outerKeys : List (Option KeyStart) := []
deriving Repr

namespace TokenStream

/-- The cursor stands inside brackets. -/
def isFlow (stream : TokenStream) : Bool := !stream.outerKeys.isEmpty

/-- The stream with one more token. -/
def push (stream : TokenStream) (token : Token) : TokenStream :=
  { stream with tokens := stream.tokens.push token }

/-- The stream with one more token, of which the signs were read. -/
def pushAt (stream : TokenStream) (token : Token) (cursor : Cursor) : TokenStream :=
  { stream with tokens := stream.tokens.push token, cursor := cursor }

/-- The stream with one more token of a single sign. -/
def pushSign (stream : TokenStream) (token : Token) : TokenStream :=
  stream.pushAt token (stream.cursor.forward 1)

/-- The stream in which a key may or may not follow. -/
def allowKey (stream : TokenStream) (allowed : Bool) : TokenStream :=
  { stream with keyAllowed := allowed }

/-- The stream without the token that may be a key; a required key must not go. -/
def dropKey (stream : TokenStream) : Option TokenStream :=
  match stream.keyStart with
  | some ⟨_, _, true⟩ => none
  | _ => some { stream with keyStart := none }

/-- The stream in which the next token may be a key, if a key is allowed. -/
def markKey (stream : TokenStream) : Option TokenStream := do
  if !stream.keyAllowed then some stream
  else
    let dropped ← stream.dropKey
    let isRequired := !stream.isFlow && stream.indent = stream.cursor.mark.column
    some { dropped with
      keyStart := some ⟨stream.tokens.size, stream.cursor.mark, isRequired⟩ }

/-- A token on another line or far behind can no longer be a key. -/
def isStale (mark : Mark) (start : KeyStart) : Bool :=
  start.mark.line < mark.line || start.mark.index + 1024 < mark.index

/-- What may be a key, unless it is stale; a required key must not be. -/
def freshKey (mark : Mark) : Option KeyStart → Option (Option KeyStart)
  | none => some none
  | some start =>
      if !isStale mark start then some (some start)
      else if start.isRequired then none
      else some none

/-- The stream without stale keys. -/
def dropStaleKeys (stream : TokenStream) : Option TokenStream := do
  let keyStart ← freshKey stream.cursor.mark stream.keyStart
  let outerKeys ← stream.outerKeys.mapM (freshKey stream.cursor.mark)
  some { stream with keyStart := keyStart, outerKeys := outerKeys }

/-- The stream with the token at a place among its tokens. -/
def insertToken (stream : TokenStream) (index : Nat) (token : Token) : TokenStream :=
  { stream with tokens := stream.tokens.insertIdxIfInBounds index token }

/-- Opens a block whose first token has the index, unless it is open already. -/
def openBlock (stream : TokenStream) (column index : Nat) (token : Token) : TokenStream :=
  if stream.isFlow || (column : Int) ≤ stream.indent then stream
  else
    { stream.insertToken index token with
      indent := column
      outerIndents := stream.indent :: stream.outerIndents }

/-- Closes blocks, innermost first, up to one that the column belongs to. -/
def closeBlocks (column : Int) (tokens : Array Token) (indent : Int) :
    List Int → Array Token × Int × List Int
  | [] => (tokens, indent, [])
  | outer :: others =>
      if column < indent then closeBlocks column (tokens.push .blockEnd) outer others
      else (tokens, indent, outer :: others)

/-- The stream in which every block right of the column is closed. -/
def closeTo (stream : TokenStream) (column : Int) : TokenStream :=
  if stream.isFlow then stream
  else
    let (tokens, indent, outerIndents) :=
      closeBlocks column stream.tokens stream.indent stream.outerIndents
    { stream with tokens := tokens, indent := indent, outerIndents := outerIndents }

/-- Passes over blanks, comments and line ends; `keyAllowed` is set behind a line end
outside brackets. -/
def passSpacing (isFlow keyAllowed inComment : Bool) (mark : Mark) :
    List Char → Cursor × Bool
  | [] => (⟨[], mark⟩, keyAllowed)
  | '\r' :: '\n' :: rest => passSpacing isFlow (!isFlow || keyAllowed) false (mark.nextLine 2) rest
  | character :: rest =>
      if isBreak character then
        passSpacing isFlow (!isFlow || keyAllowed) false (mark.nextLine 1) rest
      else if inComment || character = ' ' || (character = '\t' && (isFlow || !keyAllowed)) then
        passSpacing isFlow keyAllowed inComment (mark.forward 1) rest
      else if character = '#' then passSpacing isFlow keyAllowed true (mark.forward 1) rest
      else (⟨character :: rest, mark⟩, keyAllowed)

/-- The stream at its next token. -/
def passToNext (stream : TokenStream) : TokenStream :=
  let (cursor, keyAllowed) :=
    passSpacing stream.isFlow stream.keyAllowed false stream.cursor.mark stream.cursor.rest
  { stream with cursor := cursor, keyAllowed := keyAllowed }

/-- Reads an opening bracket. -/
def openBracket (stream : TokenStream) (token : Token) : Option TokenStream := do
  let marked ← stream.markKey
  let inside := { marked with keyStart := none, outerKeys := marked.keyStart :: marked.outerKeys }
  some ((inside.allowKey true).pushSign token)

/-- Reads a closing bracket. -/
def closeBracket (stream : TokenStream) (token : Token) : Option TokenStream := do
  let dropped ← stream.dropKey
  let outside := match dropped.outerKeys with
    | [] => dropped
    | keyStart :: others => { dropped with keyStart := keyStart, outerKeys := others }
  some ((outside.allowKey false).pushSign token)

/-- Reads the comma between items in brackets. -/
def readSeparator (stream : TokenStream) : Option TokenStream := do
  let dropped ← stream.dropKey
  some ((dropped.allowKey true).pushSign .separator)

/-- Opens a block at the cursor; outside brackets one must be allowed there. -/
def openHere (stream : TokenStream) (token : Token) : Option TokenStream :=
  if !stream.isFlow && !stream.keyAllowed then none
  else some (stream.openBlock stream.cursor.mark.column stream.tokens.size token)

/-- Reads the sign of an item. -/
def readItem (stream : TokenStream) : Option TokenStream := do
  let opened ← stream.openHere .blockList
  let dropped ← opened.dropKey
  some ((dropped.allowKey true).pushSign .item)

/-- Reads the sign of a key. -/
def readKey (stream : TokenStream) : Option TokenStream := do
  let opened ← stream.openHere .blockMap
  let dropped ← opened.dropKey
  some ((dropped.allowKey (!stream.isFlow)).pushSign .key)

/-- Reads the colon in front of a value. What may be a key becomes one. -/
def readValue (stream : TokenStream) : Option TokenStream := do
  match stream.keyStart with
  | some start =>
      let keyed := stream.insertToken start.tokenIndex .key
      let opened := keyed.openBlock start.mark.column start.tokenIndex .blockMap
      some (({ opened with keyStart := none }.allowKey false).pushSign .value)
  | none =>
      let opened ← stream.openHere .blockMap
      some ((opened.allowKey (!stream.isFlow)).pushSign .value)

/-- Reads the name of an anchor or alias. -/
def readName (stream : TokenStream) (token : String → Token) : Option TokenStream := do
  let marked ← stream.markKey
  let (name, after) ← readAnchorName stream.cursor
  some ((marked.allowKey false).pushAt (token name) after)

/-- Reads a tag. -/
def readTagToken (stream : TokenStream) : Option TokenStream := do
  let marked ← stream.markKey
  let (name, after) ← readTag stream.isFlow stream.cursor
  some ((marked.allowKey false).pushAt (.tag name) after)

/-- Reads a block scalar with its header. -/
def readBlockScalar (stream : TokenStream) (style : ScalarStyle) : Option TokenStream := do
  let dropped ← stream.dropKey
  let start := stream.cursor.forward 1
  let (header, length) ← readHeader start.rest
  let line := (start.forward length).passBlanks.passComment
  if !endsLine line.rest then none
  else
    let first := line.passBreak
    let indent := header.increment.map fun increment => (max stream.indent 0).toNat + increment
    let (content, after) ← readBlock (style = .literal) stream.indent header.chomping
      { indent := indent } first.mark first.rest
    some ((dropped.allowKey true).pushAt (.scalar style (String.ofList content)) after)

/-- Reads a scalar in quotes. -/
def readQuotedScalar (stream : TokenStream) (quote : Char) : Option TokenStream := do
  let marked ← stream.markKey
  let start := stream.cursor.forward 1
  let (content, after) ← readQuoted quote .text [] .none start.mark start.rest
  some ((marked.allowKey false).pushAt (.scalar .quoted (String.ofList content)) after)

/-- Reads a scalar without quotes. -/
def readPlainScalar (stream : TokenStream) : Option TokenStream := do
  let marked ← stream.markKey
  let scalar ← readPlain stream.isFlow (stream.indent + 1) [] .none true stream.cursor.mark
    stream.cursor.rest
  some ((marked.allowKey scalar.endsLines).pushAt (.scalar .plain (String.ofList scalar.text))
    scalar.cursor)

/-- Reads a token that ends every block: a directive or a document mark. -/
def readMark (stream : TokenStream) (token : Token) (cursor : Cursor) : Option TokenStream := do
  let dropped ← (stream.closeTo (-1)).dropKey
  some ((dropped.allowKey false).pushAt token cursor)

/-- Signs that never begin a scalar without quotes. -/
def reservedSigns : List Char :=
  ['-', '?', ':', ',', '[', ']', '\x7b', '\x7d', '#', '&', '*', '!', '|', '>', '\'', '"', '%', '@',
    '\x60']

/-- A scalar without quotes begins with the sign in front of the text. -/
def beginsPlain (isFlow : Bool) (first : Char) (rest : List Char) : Bool :=
  (!isBlank first && !isBreak first && !reservedSigns.contains first) ||
    (first = '-' && !(rest.head?.any isBlank)) ||
    (!isFlow && (first = '?' || first = ':') && !endsWord rest)

/-- Reads the token that begins with a sign. -/
def readToken (stream : TokenStream) (first : Char) (rest : List Char) : Option TokenStream :=
  let beginsWord := stream.isFlow || endsWord rest
  if first = '%' && stream.cursor.mark.column = 0 then do
    let (token, after) ← readDirective stream.cursor
    stream.readMark token after
  else if startsWithMark '-' stream.cursor.mark (first :: rest) then
    stream.readMark .documentStart (stream.cursor.forward 3)
  else if startsWithMark '.' stream.cursor.mark (first :: rest) then
    stream.readMark .documentEnd (stream.cursor.forward 3)
  else if first = '-' && endsWord rest then stream.readItem
  else if first = '?' && beginsWord then stream.readKey
  else if first = ':' && beginsWord then stream.readValue
  else
    match first with
    | '[' => stream.openBracket .listStart
    | '\x7b' => stream.openBracket .mapStart
    | ']' => stream.closeBracket .listEnd
    | '\x7d' => stream.closeBracket .mapEnd
    | ',' => stream.readSeparator
    | '*' => stream.readName .alias
    | '&' => stream.readName .anchor
    | '!' => stream.readTagToken
    | '\'' => stream.readQuotedScalar '\''
    | '"' => stream.readQuotedScalar '"'
    | _ =>
        if first = '|' && !stream.isFlow then stream.readBlockScalar .literal
        else if first = '>' && !stream.isFlow then stream.readBlockScalar .folded
        else if beginsPlain stream.isFlow first rest then stream.readPlainScalar
        else none

/-- The stream at its next token, with stale keys gone and blocks closed. -/
def prepare (stream : TokenStream) : Option TokenStream := do
  let fresh ← stream.passToNext.dropStaleKeys
  some (fresh.closeTo fresh.cursor.mark.column)

/-- Ends the stream at the end of its text. -/
def finish (stream : TokenStream) : Option (Array Token) := do
  let dropped ← (stream.closeTo (-1)).dropKey
  some (dropped.push .streamEnd).tokens

/-- Reads tokens to the end of the text; each takes at least one character. -/
def readAll (fuel : Nat) (stream : TokenStream) : Option (Array Token) :=
  match fuel with
  | 0 => none
  | fuel + 1 => do
      let next ← stream.prepare
      match next.cursor.rest with
      | [] => next.finish
      | first :: rest => readAll fuel (← next.readToken first rest)

/-- The cursor at the start of a text, behind its byte order mark. -/
def start (text : List Char) : Cursor :=
  match text with
  | '\ufeff' :: rest => ⟨rest, Mark.forward {} 1⟩
  | other => ⟨other, {}⟩

end TokenStream

/-- The tokens of a text. -/
def tokens (text : List Char) : Option (List Token) :=
  if !text.all isAllowed then none
  else
    (TokenStream.readAll (text.length + 1) { cursor := TokenStream.start text }).map
      Array.toList

end Yaml
end SchemaCompiler
