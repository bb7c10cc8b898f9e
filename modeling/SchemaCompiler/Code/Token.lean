import SchemaCompiler.Number.Shortest
import SchemaCompiler.Text.Quoted

/-!
# Tokens of generated code

Generated code is built from tokens: identifiers, literals, signs and groups in
brackets. `Token.textOf` writes tokens one blank apart.
-/

namespace SchemaCompiler
namespace Code

/-- Brackets around a group of tokens. -/
inductive Delimiter where
  | parenthesis
  | bracket
  | brace
deriving Repr, DecidableEq, Inhabited

namespace Delimiter

/-- The opening bracket. -/
def opening : Delimiter → String
  | .parenthesis => "("
  | .bracket => "["
  | .brace => "\x7b"

/-- The closing bracket. -/
def closing : Delimiter → String
  | .parenthesis => ")"
  | .bracket => "]"
  | .brace => "\x7d"

end Delimiter

/-- One token of generated code. -/
inductive Token where
  | identifier (text : String)
  | literal (text : String)
  /-- A sign, which may be joined to the sign behind it. -/
  | sign (character : Char) (joined : Bool)
  | group (delimiter : Delimiter) (tokens : List Token)
deriving Repr, Inhabited

namespace Token

/-- A sign that stands alone. -/
def alone (character : Char) : Token := .sign character false

/-- The two signs between the parts of a path. -/
def pathSign : List Token := [.sign ':' true, .sign ':' false]

/-- A path of identifiers. -/
def path : List String → List Token
  | [] => []
  | [last] => [.identifier last]
  | first :: rest => .identifier first :: pathSign ++ path rest

/-- The tokens in parentheses. -/
def parenthesized (tokens : List Token) : Token := .group .parenthesis tokens

/-- The tokens in square brackets. -/
def bracketed (tokens : List Token) : Token := .group .bracket tokens

/-- Lists of tokens with commas between them. -/
def separated : List (List Token) → List Token
  | [] => []
  | [last] => last
  | first :: rest => first ++ alone ',' :: separated rest

/-- A string literal. -/
def string (text : String) : Token := .literal (Text.literalText text)

/-- An integer literal, with a sign of its own when negative. -/
def integer (value : Int) : List Token :=
  if value < 0 then [alone '-', .literal (toString value.natAbs)]
  else [.literal (toString value)]

/-- A floating point literal, or the name of the number when it is not finite. -/
def float (value : Number.Binary64) : List Token :=
  if value.isFinite then
    let size := (Number.Binary64.ofMagnitude false value.magnitudeBits).positionalText
    let text := if size.toList.contains '.' then size else size ++ ".0"
    if value.isNegative then [alone '-', .literal text] else [.literal text]
  else if value.isNaN then path ["f64", "NAN"]
  else if value.isNegative then path ["f64", "NEG_INFINITY"]
  else path ["f64", "INFINITY"]

/-- A call of a method, behind its receiver. -/
def call (name : String) (arguments : List Token) : List Token :=
  [alone '.', .identifier name, parenthesized arguments]

mutual

/-- Text of one token. -/
def text : Token → String
  | .identifier text => text
  | .literal text => text
  | .sign character _ => String.singleton character
  | .group .brace tokens =>
      let inner := textOf tokens
      if inner = "" then "\x7b \x7d" else "\x7b " ++ inner ++ " \x7d"
  | .group delimiter tokens => delimiter.opening ++ textOf tokens ++ delimiter.closing

/-- Text of tokens, one blank apart except behind a joined sign. -/
def textOf : List Token → String
  | [] => ""
  | [last] => text last
  | first :: rest =>
      match first with
      | .sign _ true => text first ++ textOf rest
      | _ => text first ++ " " ++ textOf rest

end

end Token
end Code
end SchemaCompiler
