import SchemaCompiler.Yaml.Cursor

/-!
# Block scalars

A block scalar is the indented text below a sign that says whether its line ends
stay. Its indentation is given or taken from its first line, and the line ends
behind its last line are kept, dropped or clipped to one.
-/

namespace SchemaCompiler
namespace Yaml

/-- What happens to the line ends behind the last line. -/
inductive Chomping where
  | strip
  | clip
  | keep
deriving Repr, DecidableEq, Inhabited

/-- What stands behind the sign of a block scalar. -/
structure BlockHeader where
  chomping : Chomping := .clip
  /-- Indentation relative to what is around, if it is given. -/
  increment : Option Nat := none
deriving Repr, DecidableEq, Inhabited

/-- The chomping that a sign asks for. -/
def chomping? : Char → Option Chomping
  | '-' => some .strip
  | '+' => some .keep
  | _ => none

/-- The increment that a digit gives. -/
def increment? (character : Char) : Option Nat :=
  if character.isDigit then some (character.toNat - '0'.toNat) else none

/-- The header at the start of a text and its length; an increment of zero is not
allowed. -/
def readHeader (text : List Char) : Option (BlockHeader × Nat) :=
  let checked (header : BlockHeader) (length : Nat) : Option (BlockHeader × Nat) :=
    if header.increment = some 0 then none else some (header, length)
  match text with
  | first :: second :: _ =>
      match chomping? first, increment? first, chomping? second, increment? second with
      | some chomping, _, _, some increment => checked ⟨chomping, some increment⟩ 2
      | some chomping, _, _, none => checked ⟨chomping, none⟩ 1
      | none, some increment, some chomping, _ => checked ⟨chomping, some increment⟩ 2
      | none, some increment, none, _ => checked ⟨.clip, some increment⟩ 1
      | none, none, _, _ => some ({}, 0)
  | [first] =>
      match chomping? first, increment? first with
      | some chomping, _ => checked ⟨chomping, none⟩ 1
      | none, some increment => checked ⟨.clip, some increment⟩ 1
      | none, none => some ({}, 0)
  | [] => some ({}, 0)

/-- A block scalar as far as it was read. -/
structure BlockState where
  /-- What was read, the latest character first. -/
  taken : List Char := []
  /-- The line end behind the last line. -/
  lineEnd : List Char := []
  /-- The line ends of empty lines behind it. -/
  emptyLines : List Char := []
  /-- The last line begins with a blank. -/
  startsBlank : Bool := false
  /-- Column of the text, once it is known. -/
  indent : Option Nat := none
  /-- Greatest column up to which an empty line has blanks. -/
  widest : Nat := 0
  /-- The reader is within a line. -/
  within : Bool := false
deriving Repr, DecidableEq, Inhabited

namespace BlockState

/-- The column is still part of the indentation. -/
def isIndentation (state : BlockState) (column : Nat) : Bool :=
  match state.indent with
  | some indent => column < indent
  | none => true

/-- Column of the text when a line of text begins at `column`, inside something
indented by `around`. -/
def textColumn (state : BlockState) (around : Int) (column : Nat) : Nat :=
  match state.indent with
  | some indent => indent
  | none => max (max state.widest column) (max (around + 1) 1).toNat

/-- The line ends in front of a line, as the scalar holds them. -/
def folded (state : BlockState) (isLiteral : Bool) (first : Char) : List Char :=
  if !isLiteral && state.lineEnd = ['\n'] && !state.startsBlank && !isBlank first then
    if state.emptyLines.isEmpty then [' '] else state.emptyLines
  else state.lineEnd ++ state.emptyLines

/-- The state at the first character of a line of text. -/
def beginLine (state : BlockState) (isLiteral : Bool) (indent : Nat) (first : Char) :
    BlockState where
  taken := first :: (state.folded isLiteral first).reverse ++ state.taken
  startsBlank := isBlank first
  indent := some indent
  widest := state.widest
  within := true

/-- The scalar with the line ends that its chomping leaves. -/
def finish (state : BlockState) (chomping : Chomping) : List Char :=
  state.taken.reverse ++
    match chomping with
    | .strip => []
    | .clip => state.lineEnd
    | .keep => state.lineEnd ++ state.emptyLines

/-- The state behind a line end. -/
def addBreak (state : BlockState) (column : Nat) (character : Char) : BlockState :=
  if state.within then { state with within := false, lineEnd := [normalBreak character] }
  else
    { state with
      emptyLines := state.emptyLines ++ [normalBreak character]
      widest := max state.widest column }

end BlockState

/-- Reads on in a block scalar inside something indented by `around`. -/
def readBlock
    (isLiteral : Bool)
    (around : Int)
    (chomping : Chomping)
    (state : BlockState)
    (mark : Mark) : List Char → Option (List Char × Cursor)
  | [] => some (state.finish chomping, ⟨[], mark⟩)
  | '\r' :: '\n' :: rest =>
      readBlock isLiteral around chomping (state.addBreak mark.column '\n') (mark.nextLine 2) rest
  | character :: rest =>
      if state.within then
        if isBreak character then
          readBlock isLiteral around chomping (state.addBreak mark.column character)
            (mark.nextLine 1) rest
        else
          readBlock isLiteral around chomping { state with taken := character :: state.taken }
            (mark.forward 1) rest
      else if character = ' ' && state.isIndentation mark.column then
        readBlock isLiteral around chomping state (mark.forward 1) rest
      else if character = '\t' && state.isIndentation mark.column then none
      else if isBreak character then
        readBlock isLiteral around chomping (state.addBreak mark.column character)
          (mark.nextLine 1) rest
      else
        let indent := state.textColumn around mark.column
        if mark.column = indent then
          readBlock isLiteral around chomping (state.beginLine isLiteral indent character)
            (mark.forward 1) rest
        else some (state.finish chomping, ⟨character :: rest, mark⟩)

end Yaml
end SchemaCompiler
