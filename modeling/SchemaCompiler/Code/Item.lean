import SchemaCompiler.Code.Expression
import SchemaCompiler.Code.TokenLayout
import SchemaCompiler.Name.Identifier

/-!
# Items of generated code

A generated file is a list of items: imports, modules, constants, aliases, structs,
functions and implementations. Every item has a layout. An item can be written
only if each of its names is an identifier.
-/

namespace SchemaCompiler
namespace Code

/-- Who sees an item. -/
inductive Visibility where
  | everyone
  | crate
  | file
deriving Repr, DecidableEq, Inhabited

namespace Visibility

/-- The visibility of a name. -/
def ofText? : String → Option Visibility
  | "public" => some .everyone
  | "crate" => some .crate
  | "file" => some .file
  | _ => none

/-- What stands in front of an item. -/
def lead : Visibility → String
  | .everyone => "pub "
  | .crate => "pub(crate) "
  | .file => ""

end Visibility

/-- A type as code writes it. -/
inductive CodeType where
  | path (segments : List String)
  | within (container : String) (content : CodeType)
deriving Repr, DecidableEq, Inhabited

/-- An argument of a marker. -/
inductive Setting where
  | flag (name : String)
  | value (name text : String)
deriving Repr, DecidableEq, Inhabited

/-- A note in front of an item. -/
inductive Marker where
  | documentation (text : String)
  | flag (name : String)
  | list (name : String) (settings : List Setting)
deriving Repr, DecidableEq, Inhabited

/-- A field of a struct as code. -/
structure FieldItem where
  markers : List Marker
  name : String
  type : CodeType
deriving Repr, DecidableEq, Inhabited

/-- A constant text. -/
structure Constant where
  markers : List Marker
  name : String
  type : String
  value : String
deriving Repr, DecidableEq, Inhabited

/-- A function without arguments other than the value at hand. -/
structure Method where
  markers : List Marker
  name : String
  /-- The function takes the value at hand. -/
  takesSelf : Bool
  result : CodeType
  body : Expression
deriving Repr, Inhabited

/-- A member of an implementation. -/
inductive Member where
  | constant (definition : Constant)
  | method (definition : Method)
deriving Repr, Inhabited

/-- What is taken from a path. -/
inductive Taken where
  | everything
  | one (name : String)
  | several (names : List String)
deriving Repr, DecidableEq, Inhabited

/-- One item of a file. -/
inductive Item where
  /-- Names from a path; `reexported` ones are passed on. -/
  | use (reexported : Bool) (path : List String) (taken : Taken)
  /-- A part of the file that stands in a file of its own; an `open` one is seen as
  the file is. -/
  | part (isOpen : Bool) (name : String)
  | constant (definition : Constant)
  | alias (markers : List Marker) (name : String) (target : CodeType)
  | struct (markers : List Marker) (name : String) (fields : List FieldItem)
  | implementation (name : String) (members : List Member)
  | function (definition : Method)
deriving Repr, Inhabited

namespace CodeType

/-- Layout of a type. -/
def layout : CodeType → List Layout
  | .path segments => [.word (String.intercalate "::" segments)]
  | .within container content =>
      [.word container, .word "<"]
        ++ Layout.block 4
          (Layout.shiftLast (-4) (.blank 0 :: content.layout ++ [.trailingComma]))
        ++ [.word ">"]

/-- Identifiers of a type. -/
def names : CodeType → List String
  | .path segments => segments
  | .within container content => container :: content.names

end CodeType

namespace Taken

/-- What is taken as code. -/
def text : Taken → String
  | .everything => "*"
  | .one name => name
  | .several names => "\x7b" ++ String.intercalate ", " names ++ "\x7d"

/-- Identifiers of what is taken. -/
def names : Taken → List String
  | .everything => []
  | .one name => [name]
  | .several names => names

end Taken

namespace Marker

/-- Layout of the arguments of a marker. -/
def settingLayout : Setting → List Layout
  | .flag name => [.word name]
  | .value name text => [.word name, .word " = ", .word (Text.literalText text)]

/-- Layout of arguments with commas between them. -/
def settingsLayout : List Setting → List Layout
  | [] => []
  | [last] => settingLayout last
  | first :: rest => settingLayout first ++ [.word ",", .blank 1] ++ settingsLayout rest

/-- A note in brackets. -/
def bracketed (contents : List Layout) : List Layout :=
  [.word "#["] ++ contents ++ [.word "]", .blank 1]

/-- The text without blanks at its end. -/
def trimBlanks (text : List Char) : List Char :=
  (text.reverse.dropWhile (· = ' ')).reverse

/-- The text without blanks in front of its line ends. -/
def trimLines (text : List Char) : List Char :=
  match text.splitOn '\n' with
  | [] => []
  | lines => ['\n'].intercalate ((lines.dropLast.map trimBlanks) ++ lines.getLast?.toList)

/-- Comment brackets in a text are balanced, with `depth` of them open before it. -/
def isBalanced (depth : Nat) : List Char → Bool
  | '/' :: '*' :: rest => isBalanced (depth + 1) rest
  | '*' :: '/' :: rest => depth ≠ 0 && isBalanced (depth - 1) rest
  | _ :: rest => isBalanced depth rest
  | [] => depth = 0

/-- The text can stand in a block comment. -/
def fitsBlock (text : List Char) : Bool :=
  isBalanced 0 text && text.getLast? ≠ some '/' && text.head? ≠ some '*' && text.head? ≠ some '/'

/-- Layout of a documentation text: a line comment, a block comment or a marker. -/
def documentationLayout (text : List Char) : List Layout :=
  if !text.contains '\n' && text.head? ≠ some '/' then
    [.word "///", .word (String.ofList (trimBlanks text)), .lineEnd]
  else if fitsBlock text then
    [.word "/**", .word (String.ofList (trimLines text)), .word "*/", .lineEnd]
  else
    bracketed (settingLayout (.value "doc" (String.ofList text)))

/-- Layout of a marker. -/
def layout : Marker → List Layout
  | .documentation text => documentationLayout text.toList
  | .flag name => bracketed [.word name]
  | .list name settings =>
      bracketed ([.word name, .word "("]
        ++ Layout.block 4
          (Layout.shiftLast (-4) (.blank 0 :: settingsLayout settings ++ [.blank 0]))
        ++ [.word ")"])

/-- Layout of markers one after another. -/
def layoutAll (markers : List Marker) : List Layout := markers.flatMap layout

end Marker

namespace Expression

/-- Layout of an owned copy. -/
def ownedLayout (receiver : String) : List Layout :=
  Layout.block 4
    (Layout.block (-4) [.word receiver] ++ [.blank 0, .word ".to_string("]
      ++ Layout.block 0 [] ++ [.word ")"])

/-- Layout of a macro call. -/
def macroLayout (name : String) (delimiter : Delimiter) (tokens : List Token) : List Layout :=
  [.word name, .word "!", .word delimiter.opening]
    ++ (if tokens.isEmpty then []
      else Layout.block 4
        (Layout.shiftLast (-4)
          (.blank 0 :: Layout.flow 0 (Token.layoutOf tokens) ++ [.blank 0])))
    ++ [.word delimiter.closing]

/-- Layout of an expression. -/
def layout : Expression → List Layout
  | .ownedText text => ownedLayout (Text.literalText text)
  | .ownedConstant name => ownedLayout ("Self::" ++ name)
  | .filled template arguments =>
      macroLayout "format" .parenthesis (fillTokens template arguments)
  | .list items => macroLayout "vec" .bracket items

end Expression

namespace Item

/-- Layout of a constant. -/
def constantLayout (visibility : Visibility) (definition : Constant) : List Layout :=
  Marker.layoutAll definition.markers
    ++ Layout.block 0
      [.word (visibility.lead ++ "const " ++ definition.name ++ ": " ++ definition.type ++ " = "),
        .closedGap, .word (Text.literalText definition.value), .word ";"]
    ++ [.lineEnd]

/-- Layout of the contents of braces, without the closing one. -/
def bodyLayout (contents : List Layout) : List Layout :=
  Layout.shiftLast (-4) (.leadingLineEnd :: contents)

/-- Layout of the argument of a function. -/
def argumentLayout (takesSelf : Bool) : List Layout :=
  Layout.block 0
    (Layout.shiftLast (-4)
      (.blank 0 :: if takesSelf then [.word "&self", .trailingComma] else []))

/-- Layout of a function. -/
def methodLayout (visibility : Visibility) (method : Method) : List Layout :=
  Marker.layoutAll method.markers
    ++ Layout.block 4
      ([.word (visibility.lead ++ "fn " ++ method.name ++ "("), .closedGap]
        ++ argumentLayout method.takesSelf
        ++ [.word ")"]
        ++ Layout.block (-4) (.word " -> " :: method.result.layout)
        ++ [.word " \x7b"]
        ++ bodyLayout (Layout.flow 0 method.body.layout ++ [.lineEnd]))
    ++ [.word "\x7d", .lineEnd]

/-- Layout of a field. -/
def fieldLayout (visibility : Visibility) (field : FieldItem) : List Layout :=
  Marker.layoutAll field.markers
    ++ [.word (visibility.lead ++ field.name ++ ": ")] ++ field.type.layout
    ++ [.word ",", .lineEnd]

/-- Layout of a member of an implementation. -/
def memberLayout (visibility : Visibility) : Member → List Layout
  | .constant definition => constantLayout visibility definition
  | .method definition => methodLayout visibility definition

/-- Layout of one line. -/
def lineLayout (line : String) : List Layout := [.word line, .lineEnd]

/-- Layout of an item. -/
def layout (visibility : Visibility) : Item → List Layout
  | .use reexported path taken =>
      lineLayout ((if reexported then visibility.lead else "") ++ "use "
        ++ String.intercalate "::" (path ++ [taken.text]) ++ ";")
  | .part isOpen name =>
      lineLayout ((if isOpen then visibility.lead else "") ++ "mod " ++ name ++ ";")
  | .constant definition => constantLayout visibility definition
  | .alias markers name target =>
      Marker.layoutAll markers
        ++ Layout.block 4
          ([.word (visibility.lead ++ "type " ++ name ++ " = "), .closedGap]
            ++ Layout.flow (-4) target.layout ++ [.word ";"])
        ++ [.lineEnd]
  | .struct markers name fields =>
      Marker.layoutAll markers
        ++ Layout.block 4
          (.word (visibility.lead ++ "struct " ++ name ++ " \x7b")
            :: bodyLayout (fields.flatMap (fieldLayout visibility)))
        ++ [.word "\x7d", .lineEnd]
  | .implementation name members =>
      Layout.block 4
          (Layout.flow (-4) (Layout.block 4 [.word ("impl " ++ name)]) ++ [.word " \x7b"]
            ++ bodyLayout (members.flatMap (memberLayout visibility)))
        ++ [.word "\x7d", .lineEnd]
  | .function definition => methodLayout visibility definition

/-- Identifiers of a member. -/
def memberNames : Member → List String
  | .constant definition => [definition.name]
  | .method definition => definition.name :: definition.result.names

/-- Identifiers of an item. -/
def names : Item → List String
  | .use _ path taken => path ++ taken.names
  | .part _ name => [name]
  | .constant definition => [definition.name]
  | .alias _ name target => name :: target.names
  | .struct _ name fields =>
      name :: fields.flatMap fun field => field.name :: field.type.names
  | .implementation name members => name :: members.flatMap memberNames
  | .function definition => definition.name :: definition.result.names

end Item

/-- Text of a file with the given items. -/
def fileText (visibility : Visibility) (items : List Item) : String :=
  Layout.text (Layout.block 0 (items.flatMap (Item.layout visibility)))

/-- First name of the items that is no identifier. -/
def unwritable? (items : List Item) : Option String :=
  (items.flatMap Item.names).find? fun name => !Name.isWritable name

end Code
end SchemaCompiler
