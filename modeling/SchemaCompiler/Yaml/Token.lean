/-!
# Tokens of a YAML text

A `Token` is a scalar, a name or a sign of the text, or a bound that indentation
implies: the start of a block list or block map, or its end.
-/

namespace SchemaCompiler
namespace Yaml

/-- How a scalar is written. -/
inductive ScalarStyle where
  | plain
  | quoted
  /-- A block scalar that keeps its line ends. -/
  | literal
  /-- A block scalar that joins its lines. -/
  | folded
deriving Repr, DecidableEq, Inhabited

/-- A tag as it is written: a handle that stands for a lead, and what follows. -/
structure TagName where
  handle : String
  suffix : String
deriving Repr, DecidableEq, Inhabited

/-- What a text consists of. -/
inductive Token where
  | version (major minor : Nat)
  | tagDirective (handle lead : String)
  | documentStart
  | documentEnd
  | streamEnd
  /-- A list whose items stand below one another. -/
  | blockList
  /-- A map whose members stand below one another. -/
  | blockMap
  | blockEnd
  | listStart
  | listEnd
  | mapStart
  | mapEnd
  /-- The sign in front of an item of a block list. -/
  | item
  /-- The comma between items in brackets. -/
  | separator
  | key
  | value
  | alias (name : String)
  | anchor (name : String)
  | tag (name : TagName)
  | scalar (style : ScalarStyle) (text : String)
deriving Repr, DecidableEq, Inhabited

end Yaml
end SchemaCompiler
