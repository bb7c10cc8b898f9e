import SchemaCompiler.Code.Token

/-!
# Expressions of generated code

Methods of generated types return one expression each: an owned copy of a text, a
template filled with fields of the value at hand, or a list. In a template
`\x7b\x7d` stands for an argument, and a brace that is text is written twice.
-/

namespace SchemaCompiler
namespace Code

/-- The text with every brace written twice. -/
def escapeBraces : List Char → List Char
  | [] => []
  | character :: rest =>
      if character = '\x7b' ∨ character = '\x7d' then character :: character :: escapeBraces rest
      else character :: escapeBraces rest

/-- The sign in a template that stands for an argument. -/
def argumentSign : List Char := ['\x7b', '\x7d']

/-- How a field of the value at hand is read. -/
inductive FieldReading where
  /-- The field itself. -/
  | itself
  /-- The text a field holds. -/
  | text
  /-- The text a field may hold, or the empty text. -/
  | textOrEmpty
  /-- The shown value a field may hold, or the empty text. -/
  | shownOrEmpty
deriving Repr, DecidableEq, Inhabited

namespace FieldReading

/-- The calls behind a field that read it. -/
def tokens : FieldReading → List Token
  | .itself => []
  | .text => Token.call "as_str" []
  | .textOrEmpty => Token.call "as_deref" [] ++ Token.call "unwrap_or_default" []
  | .shownOrEmpty =>
      Token.call "as_ref" [] ++ Token.call "map" (Token.path ["ToString", "to_string"])
        ++ Token.call "unwrap_or_default" []

end FieldReading

/-- A field of the value at hand as an argument. -/
structure Argument where
  field : String
  reading : FieldReading
deriving Repr, DecidableEq, Inhabited

namespace Argument

/-- The argument as code. -/
def tokens (argument : Argument) : List Token :=
  [.identifier "self", .alone '.', .identifier argument.field] ++ argument.reading.tokens

end Argument

/-- The value that a method returns. -/
inductive Expression where
  /-- An owned copy of a literal. -/
  | ownedText (text : String)
  /-- An owned copy of a constant of the type. -/
  | ownedConstant (name : String)
  /-- A template filled with fields. -/
  | filled (template : String) (arguments : List Argument)
  /-- A list written out as code. -/
  | list (items : List Token)
deriving Repr, Inhabited

namespace Expression

/-- Arguments of the macro that fills a template; a comma follows the template also
when nothing else does. -/
def fillTokens (template : String) (arguments : List Argument) : List Token :=
  .string template :: .alone ',' :: Token.separated (arguments.map Argument.tokens)

/-- The expression as code. -/
def tokens : Expression → List Token
  | .ownedText text => .string text :: Token.call "to_string" []
  | .ownedConstant name => Token.path ["Self", name] ++ Token.call "to_string" []
  | .filled template arguments =>
      [.identifier "format", .alone '!', .parenthesized (fillTokens template arguments)]
  | .list items => [.identifier "vec", .alone '!', .bracketed items]

end Expression
end Code
end SchemaCompiler
