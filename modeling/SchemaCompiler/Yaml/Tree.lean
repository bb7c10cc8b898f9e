import SchemaCompiler.Yaml.Token

/-!
# The tree of a YAML text

`Tree.ofTokens` arranges the tokens of a text as scalars, lists and maps. Anchors
are numbered as they come, and an alias refers to the number that its name has at
that point.
-/

namespace SchemaCompiler
namespace Yaml

/-- What stands in front of a scalar, a list or a map. -/
structure Properties where
  anchor : Option Nat := none
  tag : Option String := none
deriving Repr, DecidableEq, Inhabited

/-- The content of a YAML text. -/
inductive Tree where
  | alias (anchor : Nat)
  | scalar (properties : Properties) (style : ScalarStyle) (text : String)
  | list (properties : Properties) (items : List Tree)
  | map (properties : Properties) (members : List (Tree × Tree))
deriving Repr, Inhabited

namespace Tree

/-- What stands where nothing is written. -/
def empty : Tree := .scalar {} .plain ""

/-- Tokens that are left, with what the handles of tags and the names of anchors
stand for. -/
structure Source where
  tokens : List Token
  handles : List (String × String) := [("!", "!"), ("!!", "tag:yaml.org,2002:")]
  anchors : List (String × Nat) := []

/-- Reads tokens. -/
abbrev Reading := StateT Source Option

/-- The next token. -/
def peek : Reading Token := do
  match (← get).tokens with
  | token :: _ => return token
  | [] => failure

/-- Passes over the next token. -/
def advance : Reading Unit :=
  modify fun source => { source with tokens := source.tokens.drop 1 }

/-- Passes over the next token if it is the given one. -/
def accept (token : Token) : Reading Bool := do
  if (← peek) = token then
    advance
    return true
  else return false

/-- Passes over the next token, which must be the given one. -/
def expect (token : Token) : Reading Unit := do
  if !(← accept token) then failure

/-- The whole tag of a name. -/
def resolveTag (name : TagName) : Reading String := do
  if name.handle.isEmpty then return name.suffix
  else
    match (← get).handles.lookup name.handle with
    | some lead => return lead ++ name.suffix
    | none => failure

/-- Gives the next number to an anchor, which is the number of names so far. -/
def defineAnchor (name : String) : Reading Nat := do
  let source ← get
  let number := source.anchors.length
  set { source with
    anchors := (name, number) :: source.anchors.filter fun (other, _) => other ≠ name }
  return number

/-- The tag in front of the next token, if there is one. -/
def acceptTag : Reading (Option String) := do
  match ← peek with
  | .tag name =>
      advance
      return some (← resolveTag name)
  | _ => return none

/-- The name of the anchor in front of the next token, if there is one. -/
def acceptAnchor : Reading (Option String) := do
  match ← peek with
  | .anchor name =>
      advance
      return some name
  | _ => return none

/-- Reads at most one anchor and one tag, in either order. -/
def readNames : Reading (Option String × Option String) := do
  match ← acceptAnchor with
  | some anchor => return (some anchor, ← acceptTag)
  | none =>
      let tag ← acceptTag
      return (← if tag.isSome then acceptAnchor else pure none, tag)

/-- The properties of the names. -/
def define (anchor : Option String) (tag : Option String) : Reading Properties := do
  match anchor with
  | some name => return ⟨some (← defineAnchor name), tag⟩
  | none => return ⟨none, tag⟩

/-- What may stand in a place. -/
inductive Place where
  /-- Inside brackets. -/
  | flow
  | block
  /-- A key or value of a block map, which may be a list that is not indented. -/
  | member
deriving Repr, DecidableEq, Inhabited

/-- Tokens in front of which an item of a block list is empty. -/
def itemEnds (isIndented : Bool) : List Token :=
  if isIndented then [.item, .blockEnd] else [.item, .key, .value, .blockEnd]

/-- Tokens in front of which a key or value of a block map is empty. -/
def memberEnds : List Token := [.key, .value, .blockEnd]

mutual

/-- Reads what stands in a place. -/
def readNode (fuel : Nat) (place : Place) : Reading Tree :=
  match fuel with
  | 0 => failure
  | fuel + 1 => do
      let (anchor, tag) ← readNames
      match ← peek with
      | .alias name =>
          if anchor.isSome || tag.isSome then return .scalar (← define anchor tag) .plain ""
          else
            advance
            match (← get).anchors.lookup name with
            | some number => return .alias number
            | none => failure
      | .scalar style text =>
          advance
          return .scalar (← define anchor (if tag = some "!" then none else tag)) style text
      | .listStart =>
          advance
          let properties ← define anchor tag
          return .list properties (← readItems fuel true)
      | .mapStart =>
          advance
          let properties ← define anchor tag
          return .map properties (← readMembers fuel true)
      | other =>
          if other = .item && place = .member then
            let properties ← define anchor tag
            return .list properties (← readBlockItems fuel false)
          else if other = .blockList && place ≠ .flow then
            advance
            let properties ← define anchor tag
            return .list properties (← readBlockItems fuel true)
          else if other = .blockMap && place ≠ .flow then
            advance
            let properties ← define anchor tag
            return .map properties (← readBlockMembers fuel)
          else if anchor.isSome || tag.isSome then return .scalar (← define anchor tag) .plain ""
          else failure

/-- Reads what stands in a place, which is empty in front of some tokens. -/
def readUnless (fuel : Nat) (place : Place) (ends : List Token) : Reading Tree :=
  match fuel with
  | 0 => failure
  | fuel + 1 => do
      if ends.contains (← peek) then return empty else readNode fuel place

/-- Reads the value of a key, which is empty without the sign of a value. -/
def readValue (fuel : Nat) (place : Place) (ends : List Token) : Reading Tree :=
  match fuel with
  | 0 => failure
  | fuel + 1 => do
      if ← accept .value then readUnless fuel place ends else return empty

/-- Reads the items of a block list. -/
def readBlockItems (fuel : Nat) (isIndented : Bool) : Reading (List Tree) :=
  match fuel with
  | 0 => failure
  | fuel + 1 => do
      if ← accept .item then
        let item ← readUnless fuel .block (itemEnds isIndented)
        return item :: (← readBlockItems fuel isIndented)
      else
        if isIndented then expect .blockEnd
        return []

/-- Reads the members of a block map. -/
def readBlockMembers (fuel : Nat) : Reading (List (Tree × Tree)) :=
  match fuel with
  | 0 => failure
  | fuel + 1 => do
      if ← accept .key then
        let key ← readUnless fuel .member memberEnds
        let value ← readValue fuel .member memberEnds
        return (key, value) :: (← readBlockMembers fuel)
      else
        expect .blockEnd
        return []

/-- Reads the items of a list in brackets. -/
def readItems (fuel : Nat) (isFirst : Bool) : Reading (List Tree) :=
  match fuel with
  | 0 => failure
  | fuel + 1 => do
      if ← accept .listEnd then return []
      else
        if !isFirst then expect .separator
        if ← accept .listEnd then return []
        else
          let item ← if ← accept .key then readPair fuel else readNode fuel .flow
          return item :: (← readItems fuel false)

/-- Reads a map of one member inside a list; where its key is empty, the token behind
it is passed over. -/
def readPair (fuel : Nat) : Reading Tree :=
  match fuel with
  | 0 => failure
  | fuel + 1 => do
      let isEmpty := [Token.value, .separator, .listEnd].contains (← peek)
      if isEmpty then advance
      let key ← if isEmpty then pure empty else readNode fuel .flow
      let value ← readValue fuel .flow [.separator, .listEnd]
      return .map {} [(key, value)]

/-- Reads the members of a map in brackets. -/
def readMembers (fuel : Nat) (isFirst : Bool) : Reading (List (Tree × Tree)) :=
  match fuel with
  | 0 => failure
  | fuel + 1 => do
      if ← accept .mapEnd then return []
      else
        if !isFirst then expect .separator
        if ← accept .mapEnd then return []
        else if ← accept .key then
          let key ← readUnless fuel .flow [.value, .separator, .mapEnd]
          let value ← readValue fuel .flow [.separator, .mapEnd]
          return (key, value) :: (← readMembers fuel false)
        else
          let key ← readNode fuel .flow
          return (key, empty) :: (← readMembers fuel false)

end

/-- Adds a handle that directives define once. -/
def defineHandle (defined : List (String × String)) (handle lead : String) :
    Option (List (String × String)) :=
  if (defined.lookup handle).isSome then none else some (defined ++ [(handle, lead)])

/-- Reads the directives in front of a document: one version at most, and handles. -/
def readDirectives (hasVersion : Bool) (defined : List (String × String)) :
    List Token → Option (List (String × String) × List Token)
  | .version major minor :: rest =>
      if hasVersion || major ≠ 1 || (minor ≠ 1 && minor ≠ 2) then none
      else readDirectives true defined rest
  | .tagDirective handle lead :: rest => do
      readDirectives hasVersion (← defineHandle defined handle lead) rest
  | rest => some (defined, rest)

/-- Reads the content of a document behind its mark. -/
def readContent (fuel : Nat) : Reading Tree := do
  match ← peek with
  | .version _ _ | .tagDirective _ _ | .documentStart | .documentEnd | .streamEnd => return empty
  | _ => readNode fuel .block

/-- Reads a document: directives need its mark behind them. -/
def readDocument (fuel : Nat) : Reading Tree := do
  let source ← get
  match source.tokens with
  | .version _ _ :: _ | .tagDirective _ _ :: _ | .documentStart :: _ =>
      let (defined, rest) ← readDirectives false [] source.tokens
      set { source with tokens := rest, handles := defined ++ source.handles }
      expect .documentStart
      readContent fuel
  | _ => readNode fuel .block

/-- Nothing but marks of document ends is left. -/
def isFinished (tokens : List Token) : Bool :=
  tokens.dropWhile (· = .documentEnd) = [.streamEnd]

/-- The tree of a text, which holds one document or nothing. -/
def ofTokens (tokens : List Token) : Option Tree :=
  if tokens = [.streamEnd] then some empty
  else do
    let (tree, rest) ← readDocument (4 * tokens.length + 4) { tokens := tokens }
    if isFinished rest.tokens then some tree else none

end Tree
end Yaml
end SchemaCompiler
