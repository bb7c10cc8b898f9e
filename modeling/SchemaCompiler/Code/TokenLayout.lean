import SchemaCompiler.Code.Layout
import SchemaCompiler.Code.Token

/-!
# Layout of tokens

Tokens of which only the order is known are set with gaps where code usually has
blanks. What was set last decides about the gap in front of a token.
-/

namespace SchemaCompiler
namespace Code
namespace Token

/-- What was set last. -/
inductive Previous where
  | start
  | name
  | nameCall
  | closing
  | colon
  | pathSign
  | dot
  | other
deriving Repr, DecidableEq, Inhabited

/-- A gap with a blank stands in front of the token, and what it leaves behind. -/
def follow (previous : Previous) : Token → Bool × Previous
  | .group delimiter _ =>
      match previous, delimiter with
      | .name, .parenthesis | .name, .bracket => (false, .closing)
      | .nameCall, _ => (false, .other)
      | _, _ => (true, .closing)
  | .identifier _ => (previous ≠ .dot && previous ≠ .pathSign, .name)
  | .literal _ => (previous ≠ .dot, .name)
  | .sign character joined =>
      match previous, character, joined with
      | .name, '!', _ => (false, .nameCall)
      | .colon, ':', _ => (false, .pathSign)
      | _, ',', _ => (false, .other)
      | _, '.', _ => (previous ≠ .name && previous ≠ .closing, .dot)
      | _, ':', true => (previous ≠ .name, .colon)
      | _, _, _ => (true, .other)

/-- The gap in front of a token. -/
def gapBefore (isSpaced : Bool) : Token → List Layout
  | .sign '.' _ => [Layout.blank (if isSpaced then 1 else 0)]
  | _ => if isSpaced then [Layout.blank 1] else []

/-- The next token stands right behind the token. -/
def isJoined : Token → Bool
  | .sign _ joined => joined
  | _ => false

mutual

/-- Layout of a token without the gap in front of it. -/
def layout : Token → List Layout
  | .identifier text => [.word text]
  | .literal text => [.word text]
  | .sign character _ => [.word (String.singleton character)]
  | .group delimiter tokens =>
      .word delimiter.opening :: layoutFrom .start true tokens ++ [.word delimiter.closing]

/-- Layout of tokens behind what was set last. -/
def layoutFrom (previous : Previous) (joined : Bool) : List Token → List Layout
  | [] => []
  | token :: rest =>
      let (isSpaced, next) := follow previous token
      (if joined then [] else gapBefore isSpaced token) ++ layout token
        ++ layoutFrom next token.isJoined rest

end

/-- Layout of the tokens of a macro call. -/
def layoutOf (tokens : List Token) : List Layout := layoutFrom .start true tokens

end Token
end Code
end SchemaCompiler
