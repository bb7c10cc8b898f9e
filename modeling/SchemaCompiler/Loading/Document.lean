import SchemaCompiler.Loading.Directory
import SchemaCompiler.Reading.Document

/-!
# Loading documents

A document is a base and overrides that are merged into it one after another.
Each comes from a file whose extension tells its format. What was loaded has its
implicit names and is valid.
-/

namespace SchemaCompiler
namespace Loading

open SchemaCompiler.Reading (ReadError)
open SchemaCompiler.Schema (Document SchemaError)

/-- The format of a text. -/
inductive Format where
  | json
  | yaml
deriving Repr, DecidableEq, Inhabited

namespace Format

/-- The format that an extension names; every other extension is one of JSON. -/
def ofExtension (extension : String) : Format :=
  if extension = "yaml" || extension = "yml" then .yaml else .json

end Format

/-- The extension of a file name, which is what follows its last dot; a name that has
its only dot in front has none. -/
def extension? (name : String) : Option String :=
  let letters := name.toList.reverse
  match letters.dropWhile (· ≠ '.') with
  | _ :: _ :: _ => some (String.ofList (letters.takeWhile (· ≠ '.')).reverse)
  | _ => none

/-- The format of the file at a path. -/
def formatOf (path : String) : Format :=
  match ((placeOf path).getLast?).bind extension? with
  | some extension => .ofExtension extension
  | none => .json

/-- Reads a document. -/
def parse (format : Format) (text : String) : Except ReadError Document :=
  match format with
  | .json => Reading.ofJsonText Reading.readDocument text
  | .yaml => Reading.ofYamlText Reading.readDocument text

/-- Why no document was loaded. -/
inductive LoadError where
  | missing (path : String)
  | unreadable (path : String) (format : Format) (error : ReadError)
  | conflict (path : String) (error : SchemaError)
  | invalid (error : SchemaError)
deriving Repr, DecidableEq, Inhabited

namespace LoadError

/-- Wording of an error; what is wrong with a YAML text is not told. -/
def message : LoadError → String
  | .missing path => s!"failed to open {path}"
  | .unreadable path .json error => s!"failed to parse {path}: {error.message}"
  | .unreadable path .yaml _ => s!"failed to parse {path}"
  | .conflict path error => s!"failed to apply override {path}: {error.message}"
  | .invalid error => s!"document failed validation: {error.message}"

end LoadError

/-- Where texts come from: the text of the file at a path, if there is one. -/
abbrev Files := String → Option String

/-- Reads the document in a file. -/
def readFile (files : Files) (path : String) : Except LoadError Document :=
  match files path with
  | none => .error (.missing path)
  | some text => (parse (formatOf path) text).mapError (.unreadable path (formatOf path))

/-- The document with the overrides in some files. -/
def applyOverrides (files : Files) (document : Document) :
    List String → Except LoadError Document
  | [] => .ok document
  | path :: rest => do
      let overlay ← readFile files path
      let merged ← (document.applyOverride overlay).mapError (.conflict path)
      applyOverrides files merged rest

/-- Loads the document in a file with the overrides in others. -/
def loadDocument (files : Files) (base : String) (overrides : List String) :
    Except LoadError Document := do
  let read ← readFile files base
  let merged ← applyOverrides files read overrides
  let named := merged.normalize
  named.validate.mapError .invalid
  return named

end Loading
end SchemaCompiler
