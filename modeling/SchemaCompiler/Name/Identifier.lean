import SchemaCompiler.Name.Words
import SchemaCompiler.Text.IdentifierTable

/-!
# Identifiers of generated code

Display names become identifiers that the generated Rust accepts: field names
step aside for keywords with a raw prefix, module names with a trailing
underscore, and type names avoid the names every file has in scope. A class name
that a document declares stays as written when it already is an identifier.
-/

namespace SchemaCompiler
namespace Name

/-- Words that cannot stand as a field or module name: the keywords, `gen` among them, apart from
`self` and `Self`. -/
def keywords : List String :=
  ["as", "break", "const", "continue", "crate", "else", "enum", "extern", "false", "fn", "for",
    "if", "impl", "in", "let", "loop", "match", "mod", "move", "mut", "pub", "ref", "return",
    "static", "struct", "super", "trait", "true", "type", "unsafe", "use", "where", "while",
    "async", "await", "dyn", "try", "abstract", "become", "box", "do", "final", "macro",
    "override", "priv", "typeof", "unsized", "virtual", "yield", "gen"]

/-- Keywords that have no raw form. -/
def pathKeywords : List String := ["self", "crate", "super"]

/-- Type names every generated file has in scope. -/
def reservedTypes : List String :=
  ["Clone", "Copy", "Default", "Display", "Option", "Result", "Self", "String", "Vec"]

/-- Words that a declared class name cannot be: the keywords of the editions before `gen` became
one, so a class `gen` keeps its name. -/
def declaredKeywords : List String :=
  ["as", "async", "await", "abstract", "become", "box", "break", "const", "continue", "crate",
    "do", "dyn", "else", "enum", "extern", "false", "final", "fn", "for", "if", "impl", "in",
    "let", "loop", "macro", "match", "mod", "move", "mut", "override", "priv", "pub", "ref",
    "return", "self", "Self", "static", "struct", "super", "trait", "true", "try", "type",
    "typeof", "unsafe", "unsized", "use", "virtual", "where", "while", "yield"]

/-- The text begins with a decimal digit. -/
def startsWithDigit (text : String) : Bool :=
  match text.toList with
  | first :: _ => first.isDigit
  | [] => false

/-- The display name in snake case as a field or method. -/
def escapeField (display : String) : String :=
  if display = "" then "_"
  else if display ∈ pathKeywords then display ++ "_"
  else if display ∈ keywords then "r#" ++ display
  else if startsWithDigit display then "_" ++ display
  else display

/-- The display name in Pascal case as a type. -/
def escapeType (display : String) : String :=
  if display = "" then "Unnamed"
  else
    let free := if display ∈ reservedTypes then display ++ "Schema" else display
    if startsWithDigit free then "T" ++ free else free

/-- The display name in snake case as a module. -/
def escapeModule (display : String) : String :=
  if display = "" then "unnamed"
  else if display = "self" ∨ display ∈ keywords then display ++ "_"
  else if startsWithDigit display then "_" ++ display
  else display

/-- The raw prefix of an identifier. -/
def rawPrefix : List Char := ['r', '#']

/-- Identifier text without its raw prefix. -/
def unraw (identifier : String) : String :=
  if rawPrefix.isPrefixOf identifier.toList then String.ofList (identifier.toList.drop 2)
  else identifier

/-- Identifier derived from another by a suffix. -/
def withSuffix (identifier suffix : String) : String :=
  unraw identifier ++ suffix

/-- The character may begin an identifier. -/
def isIdentifierStart (character : Char) : Bool :=
  character = '_' || Text.inRanges Text.identifierStarts character

/-- The character may continue an identifier. -/
def isIdentifierContinuation (character : Char) : Bool :=
  Text.inRanges Text.identifierContinuations character

/-- The text is one identifier and not a keyword. -/
def isPlainIdentifier (text : List Char) : Bool :=
  match text with
  | [] => false
  | first :: rest =>
      isIdentifierStart first && rest.all isIdentifierContinuation &&
        text ≠ ['_'] && !declaredKeywords.contains (String.ofList text)

/-- Signs that count as blanks between the words of generated code. -/
def isBlank (character : Char) : Bool :=
  let code := character.toNat
  (0x09 ≤ code && code ≤ 0x0D) || (0x2000 ≤ code && code ≤ 0x200A) ||
    code ∈ [0x20, 0x85, 0xA0, 0x1680, 0x200E, 0x200F, 0x2028, 0x2029, 0x202F, 0x205F, 0x3000]

/-- What follows a line comment. -/
def afterLine : List Char → List Char
  | [] => []
  | '\n' :: rest => '\n' :: rest
  | _ :: rest => afterLine rest

/-- What follows a block comment of which `depth` levels are open, or nothing
when it does not end. -/
def afterBlock (depth : Nat) : List Char → Option (List Char)
  | '/' :: '*' :: rest => afterBlock (depth + 1) rest
  | '*' :: '/' :: rest => if depth ≤ 1 then some rest else afterBlock (depth - 1) rest
  | _ :: rest => afterBlock depth rest
  | [] => none

/-- The comment at the start of a text is documentation, which counts as code. -/
def isDocumentation (text : List Char) : Bool :=
  let starts (opening : String) : Bool := opening.toList.isPrefixOf text
  starts "//!" || starts "/*!" || (starts "///" && !starts "////") ||
    (starts "/**" && !starts "/***" && !starts "/**/")

/-- What follows the comment at the start of a text, if there is one to skip. -/
def afterComment? (text : List Char) : Option (List Char) :=
  if isDocumentation text then none
  else
    match text with
    | '/' :: '/' :: rest => some (afterLine rest)
    | '/' :: '*' :: rest => afterBlock 1 rest
    | _ => none

/-- The text without leading blanks and comments, at most `limit` of them. -/
def skipBlanks (limit : Nat) (text : List Char) : List Char :=
  match limit with
  | 0 => text
  | limit + 1 =>
      match afterComment? text with
      | some rest => skipBlanks limit rest
      | none =>
          match text with
          | first :: rest => if isBlank first then skipBlanks limit rest else text
          | [] => []

/-- The text is one identifier, possibly raw, among blanks and comments. -/
def isDeclarable (name : String) : Bool :=
  let text := match name.toList with
    | '\uFEFF' :: rest => rest
    | other => other
  let start := skipBlanks text.length text
  let raw := rawPrefix.isPrefixOf start
  let word := if raw then start.drop 2 else start
  let identifier := word.takeWhile isIdentifierContinuation
  let rest := word.drop identifier.length
  let shape := match identifier with
    | [] => false
    | first :: _ => isIdentifierStart first
  let allowed :=
    if raw then !(["_", "super", "self", "Self", "crate"].contains (String.ofList identifier))
    else isPlainIdentifier identifier
  shape && allowed && (skipBlanks rest.length rest).isEmpty

/-- The declared name is kept as it is written. -/
def isKept (name : String) : Bool :=
  !rawPrefix.isPrefixOf name.toList && !reservedTypes.contains name && isDeclarable name

/-- The name can be written into code as it stands. -/
def isWritable (name : String) : Bool :=
  let text := if rawPrefix.isPrefixOf name.toList then name.toList.drop 2 else name.toList
  match text with
  | [] => false
  | first :: rest => isIdentifierStart first && rest.all isIdentifierContinuation

variable [Lettering]

/-- Field or method identifier in snake case. -/
def fieldName (name : String) : String := escapeField (snake name)

/-- Type identifier in Pascal case. -/
def typeName (name : String) : String := escapeType (pascal name)

/-- Module name or file stem in snake case, never raw. -/
def moduleName (name : String) : String := escapeModule (snake name)

/-- Type identifier of a child nested in the type `parent`. -/
def nested (parent child : String) : String :=
  parent ++ typeName child

/-- A declared class name, kept as written when it already is an identifier. -/
def declaredName (name : String) : String := if isKept name then name else typeName name

end Name
end SchemaCompiler
