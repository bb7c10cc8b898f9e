import SchemaCompiler.CommandLine.Arguments
import SchemaCompiler.CommandLine.Report
import SchemaCompiler.CommandLine.Table
import SchemaCompiler.Loading.Document
import SchemaCompiler.Name.Standard
import SchemaCompiler.Text.Lines

/-!
# Runs of the program

`run` carries out an invocation on the files at hand, with names in the standard
lettering. Its outcome holds all that the program prints and writes, so that nothing is
left to do but to print and write it.
-/

namespace SchemaCompiler
namespace CommandLine

open SchemaCompiler.Code (Visibility)
open SchemaCompiler.Generation (Project Titled)
open SchemaCompiler.Loading (Files LoadError)
open SchemaCompiler.Order (NameSet)
open SchemaCompiler.Schema (Document Namespace SchemaError)

/-- Why a run ended early. -/
inductive Failure where
  | load (error : LoadError)
  | invalidVisibility (name : String)
  | verboseAndQuiet
  /-- The entry of a namespace refers to something that is not there. -/
  | dependencies (name : String) (error : SchemaError)
  /-- A class that has to be written is no identifier. -/
  | unwritableClass (name : String)
deriving Repr, DecidableEq, Inhabited

namespace Failure

/-- Wording of a failure. -/
def message : Failure → String
  | .load error => error.message
  | .invalidVisibility name =>
      s!"Invalid visibility '{name}': expected public, crate or file"
  | .verboseAndQuiet => "--verbose and --quiet cannot be used together"
  | .dependencies name error => s!"namespace '{name}': {error.message}"
  | .unwritableClass name => s!"'{name}' is not an identifier"

end Failure

/-- What a run prints and writes. -/
structure Outcome where
  /-- Lines of the usual output. -/
  output : List String := []
  /-- Lines of the output for warnings. -/
  diagnostics : List String := []
  /-- Paths and texts of files. -/
  files : List (String × String) := []
  failure : Option Failure := none
deriving Repr, DecidableEq, Inhabited

namespace Outcome

/-- Lines as text. -/
def text (lines : List String) : String := String.join (lines.map (· ++ "\n"))

end Outcome

/-- What a run finds around it. -/
structure Surroundings where
  files : Files
  /-- The time in front of messages. -/
  time : String
  isTerminal : Bool := false
  /-- Colours that the terminal tells. -/
  colors : Option String := none

/-- Names without the blanks around them; empty ones do not count. -/
def selectedNames (names : List String) : NameSet :=
  let trimmed := names.map fun name =>
    String.ofList (Text.trimEnd (name.toList.dropWhile Text.isWhitespace))
  .ofList (trimmed.filter fun name => !name.isEmpty)

/-- Generates code for a document; `before` was told already. It is `none` if the
generation never ends. -/
def generateDocument
    (report : Report)
    (options : GenerateOptions)
    (visibility : Visibility)
    (before : List String)
    (document : Document) : Option Outcome := do
  let project := Project.ofDocument document
  let only := selectedNames options.only
  let announced := before ++ report.generating project only.names
  match ← Generation.generate project ⟨options.sources.base, visibility, only⟩ with
  | .error name => return { output := announced, failure := some (.unwritableClass name) }
  | .ok output =>
      let warnings := report.warningLines output.statistics.warnings
      return {
        output := announced
          ++ report.statistics output.statistics
          ++ (if warnings.isEmpty then [] else [""])
          ++ report.writing options.output output.files
          ++ report.done
        diagnostics := warnings
        files := output.files.map fun file =>
          (options.output ++ "/" ++ file.path.text, file.text) }

/-- Generates code; `none` if the generation never ends. -/
def generate (surroundings : Surroundings) (style : Style) (options : GenerateOptions) :
    Option Outcome :=
  match Visibility.ofText? options.visibility with
  | none => some { failure := some (.invalidVisibility options.visibility) }
  | some visibility =>
      if options.isVerbose && options.isQuiet then some { failure := some .verboseAndQuiet }
      else
        let report : Report := ⟨style, surroundings.time, options.isVerbose, options.isQuiet⟩
        let sources := options.sources
        let told := report.loading sources.base sources.overrides
        match Loading.loadDocument surroundings.files sources.base sources.overrides with
        | .error error => some { output := told, failure := some (.load error) }
        | .ok document => generateDocument report options visibility told document

/-- The functions of a namespace, one on each line. -/
def functionLines (managed : Namespace) : String :=
  String.intercalate "\n" (managed.functions.map fun (_, function) =>
    s!"{function.name} {function.httpMethod} {function.uri}")

/-- The row of a namespace. -/
def namespaceRow (project : Project) (titled : Titled) : Except Failure (List Cell) := do
  let managed := titled.managed
  let ids ← (project.dependencies managed).mapError (.dependencies managed.name)
  return [
    .ofText managed.name .left,
    .ofText titled.slug .right,
    .ofText managed.schema .left,
    .ofText (functionLines managed) .left,
    .ofText (String.intercalate ", " ids.names) .left]

/-- The table of the namespaces of a document, by name. -/
def namespaceTable (document : Document) : Except Failure Table := do
  let project := Project.ofDocument document
  let sorted := project.namespaces.mergeSort fun first second =>
    first.managed.name ≤ second.managed.name
  let rows ← sorted.mapM (namespaceRow project)
  return ⟨["NAMESPACE", "SLUG", "SCHEMA", "FUNCTIONS", "DEPENDS ON"], rows⟩

/-- Lists namespaces. -/
def listNamespaces (files : Files) (sources : Sources) : Outcome :=
  match Loading.loadDocument files sources.base sources.overrides with
  | .error error => { failure := some (.load error) }
  | .ok document =>
      match namespaceTable document with
      | .error failure => { failure := some failure }
      | .ok table => { output := table.lines }

/-- Carries out an invocation; `none` if it never ends. -/
def run (surroundings : Surroundings) (invocation : Invocation) : Option Outcome :=
  match invocation.command with
  | .generate options =>
      let style := Style.ofModes invocation.color invocation.theme surroundings.isTerminal
        surroundings.colors
      generate surroundings style options
  | .listNamespaces sources => some (listNamespaces surroundings.files sources)

end CommandLine
end SchemaCompiler
