import SchemaCompiler.Code.Token
import SchemaCompiler.Text.Lines

/-!
# Documentation of generated items

A `Documentation` is a list of lines. Free text is split at line ends, written or
escaped; further paragraphs are set off by an empty line.
-/

namespace SchemaCompiler
namespace Code

/-- Lines that document a generated item. -/
structure Documentation where
  lines : List String := []
deriving Repr, DecidableEq, Inhabited

namespace Documentation

/-- The lines of a free text. -/
def ofText (text : String) : Documentation :=
  let lines := Text.splitLines (Text.unescapeLines text.toList)
  ⟨lines.map fun line => String.ofList (Text.trimEnd (Text.dropReturn line))⟩

/-- The lines of a free text, if there is one. -/
def ofOption (text : Option String) : Documentation := (text.map ofText).getD {}

/-- There is no line. -/
def isEmpty (documentation : Documentation) : Bool := documentation.lines.isEmpty

/-- The documentation with one more paragraph, unless that has no lines. -/
def addParagraph (documentation : Documentation) (lines : List String) : Documentation :=
  if lines.isEmpty then documentation
  else if documentation.isEmpty then ⟨lines⟩
  else ⟨documentation.lines ++ "" :: lines⟩

/-- The lines as one text. -/
def text (documentation : Documentation) : String := String.intercalate "\n" documentation.lines

/-- The attribute of one line. -/
def lineTokens (line : String) : List Token :=
  [.alone '#', .bracketed [.identifier "doc", .alone '=', .string (" " ++ line)]]

/-- The attributes of all lines. -/
def tokens (documentation : Documentation) : List Token :=
  documentation.lines.flatMap lineTokens

end Documentation
end Code
end SchemaCompiler
