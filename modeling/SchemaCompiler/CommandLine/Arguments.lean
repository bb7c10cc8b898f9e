import SchemaCompiler.CommandLine.Setting

/-!
# Reading arguments

Arguments are read one by one. A setting with a value waits for it, and is taken
only when the next setting comes or the arguments end; whatever is wrong with it
shows at that point.
-/

namespace SchemaCompiler
namespace CommandLine

/-- Why arguments ask for nothing that can be done. -/
inductive UsageError where
  /-- Help was asked for. -/
  | help
  /-- The version was asked for. -/
  | version
  /-- Nothing was asked for. -/
  | nothingGiven
  | missingCommand
  | missingArgument
  | unknownCommand
  | unknownArgument
  | invalidValue
  /-- A setting without value got one. -/
  | unexpectedValue
  | repeatedArgument
deriving Repr, DecidableEq, Inhabited

namespace UsageError

/-- What was asked for was given, so that the program has not failed. -/
def isAnswer : UsageError → Bool
  | .help | .version => true
  | _ => false

/-- Exit code of the program. -/
def exitCode (error : UsageError) : Nat := if error.isAnswer then 0 else 2

end UsageError

/-- Settings with their values in the order they were given. -/
abbrev Values := List (Setting × String)

/-- Settings given so far. -/
structure Given where
  values : Values := []
  /-- The last setting with its value, before it is taken. -/
  waiting : Option (Setting × Option String) := none
deriving Repr, DecidableEq, Inhabited

namespace Given

/-- A setting was given and its value was not. -/
def needsValue (given : Given) : Bool :=
  match given.waiting with
  | some (_, none) => true
  | _ => false

/-- Takes a setting with its value. -/
def take (given : Given) (setting : Setting) (value : String) : Except UsageError Given :=
  if !setting.isRepeatable && (given.values.lookup setting).isSome then .error .repeatedArgument
  else if !setting.allows value then .error .invalidValue
  else .ok { given with values := given.values ++ [(setting, value)] }

/-- Takes the setting that waits. -/
def settle (given : Given) : Except UsageError Given :=
  match given.waiting with
  | none => .ok given
  | some (_, none) => .error .invalidValue
  | some (setting, some value) => { given with waiting := none }.take setting value

/-- Adds a setting without value. -/
def addFlag (given : Given) (setting : Setting) : Except UsageError Given := do
  let settled ← given.settle
  match setting with
  | .help => throw .help
  | .version => throw .version
  | _ => settled.take setting ""

/-- Adds a setting that needs a value, with the value if it is at hand. -/
def addValued (given : Given) (setting : Setting) (value : Option String) :
    Except UsageError Given := do
  let settled ← given.settle
  match value with
  | some text => settled.take setting text
  | none => return { settled with waiting := some (setting, none) }

/-- Adds a setting by its name, with what follows an equals sign. -/
def addNamed (scope : Scope) (given : Given) (name : String) (value : Option String) :
    Except UsageError Given :=
  match scope.named? name, value with
  | none, _ => .error .unknownArgument
  | some setting, value =>
      if setting.takesValue then given.addValued setting value
      else if value.isSome then .error .unexpectedValue
      else given.addFlag setting

/-- The value that directly follows a letter, if there is one. -/
def attachedValue : List Char → Option String
  | [] => none
  | '=' :: value => some (String.ofList value)
  | value => some (String.ofList value)

/-- Adds settings by their letters. -/
def addLetters (scope : Scope) (given : Given) : List Char → Except UsageError Given
  | [] => .ok given
  | letter :: rest =>
      match scope.lettered? letter with
      | none => .error .unknownArgument
      | some setting =>
          if setting.takesValue then given.addValued setting (attachedValue rest)
          else do addLetters scope (← given.addFlag setting) rest

/-- Adds an argument that begins with a dash. -/
def addDashed (scope : Scope) (given : Given) (letters : List Char) : Except UsageError Given :=
  match letters with
  | '-' :: text =>
      let name := String.ofList (text.takeWhile (· ≠ '='))
      match text.dropWhile (· ≠ '=') with
      | _ :: value => given.addNamed scope name (some (String.ofList value))
      | [] => given.addNamed scope name none
  | _ => given.addLetters scope letters

end Given

/-- Settings given to a command and to the scopes around it. -/
structure Parsed where
  scope : Scope
  values : Values
deriving Repr, DecidableEq, Inhabited

/-- What a request for help gives: names of commands may follow it. -/
def helpAnswer (scope : Scope) : List String → UsageError
  | [] => .help
  | name :: rest =>
      match scope.commands.lookup name with
      | some command => helpAnswer command rest
      | none =>
          if name = "help" && scope.needsCommand && rest.isEmpty then .help else .unknownCommand

/-- The error of an argument that belongs nowhere; behind two dashes a command is an
argument like any other. -/
def strayArgument (scope : Scope) (isLiteral : Bool) (argument : String) : UsageError :=
  if !scope.needsCommand then .unknownArgument
  else if isLiteral && ("help" :: scope.commands.map Prod.fst).contains argument then
    .unknownArgument
  else .unknownCommand

/-- Checks the settings of a scope when its arguments end. -/
def finish (scope : Scope) (values : Values) : Except UsageError Parsed :=
  if scope.needsCommand then
    .error (if values.isEmpty then .nothingGiven else .missingCommand)
  else if scope.required.all fun setting => (values.lookup setting).isSome then
    .ok ⟨scope, values⟩
  else .error .missingArgument

/-- Reads the arguments of a scope; all are literal behind two dashes. -/
def readArguments (scope : Scope) (given : Given) (isLiteral : Bool) :
    List String → Except UsageError Parsed
  | [] => do
      let settled ← given.settle
      finish scope settled.values
  | argument :: rest =>
      if isLiteral then .error (strayArgument scope true argument)
      else if !given.needsValue && scope.needsCommand && argument = "help" then
        .error (helpAnswer scope rest)
      else
        match if given.needsValue then none else scope.commands.lookup argument with
        | some command => do
            let parsed ← readArguments command {} false rest
            let settled ← given.settle
            return { parsed with values := settled.values ++ parsed.values }
        | none =>
            match argument.toList with
            | ['-', '-'] => readArguments scope given true rest
            | '-' :: first :: letters => do
                readArguments scope (← given.addDashed scope (first :: letters)) false rest
            | _ =>
                match given.waiting with
                | some (setting, none) =>
                    readArguments scope { given with waiting := some (setting, some argument) }
                      false rest
                | _ => .error (strayArgument scope false argument)

/-- The document that a command works on. -/
structure Sources where
  base : String
  overrides : List String
deriving Repr, DecidableEq, Inhabited

/-- What generation is asked for. -/
structure GenerateOptions where
  sources : Sources
  output : String
  visibility : String
  isVerbose : Bool
  isQuiet : Bool
  /-- Names as they were given, between commas. -/
  only : List String
deriving Repr, DecidableEq, Inhabited

/-- What the program is asked to do. -/
inductive Command where
  | generate (options : GenerateOptions)
  | listNamespaces (sources : Sources)
deriving Repr, DecidableEq, Inhabited

/-- A command with the settings that every command has. -/
structure Invocation where
  color : ColorMode
  theme : ThemeMode
  command : Command
deriving Repr, DecidableEq, Inhabited

namespace Parsed

/-- All values of a setting. -/
def all (parsed : Parsed) (setting : Setting) : List String :=
  (parsed.values.filter fun (given, _) => given = setting).map Prod.snd

/-- The value of a setting that was given closest to the end. -/
def last? (parsed : Parsed) (setting : Setting) : Option String :=
  (parsed.all setting).getLast?

/-- The setting was given. -/
def has (parsed : Parsed) (setting : Setting) : Bool := !(parsed.all setting).isEmpty

/-- The document of a command. -/
def sources (parsed : Parsed) : Sources where
  base := (parsed.last? .input).getD ""
  overrides := parsed.all .override

/-- The pieces of a text between commas. -/
def commaPieces (text : String) : List String :=
  (text.toList.splitOn ',').map String.ofList

/-- What generation is asked for. -/
def generateOptions (parsed : Parsed) : GenerateOptions where
  sources := parsed.sources
  output := (parsed.last? .output).getD ""
  visibility := (parsed.last? .visibility).getD "public"
  isVerbose := parsed.has .verbose
  isQuiet := parsed.has .quiet
  only := (parsed.all .only).flatMap commaPieces

/-- What the program is asked to do. -/
def command (parsed : Parsed) : Command :=
  match parsed.scope with
  | .generate => .generate parsed.generateOptions
  | _ => .listNamespaces parsed.sources

/-- The invocation that the settings make up. -/
def invocation (parsed : Parsed) : Invocation where
  color := ((parsed.last? .color).bind ColorMode.ofText?).getD .auto
  theme := ((parsed.last? .theme).bind ThemeMode.ofText?).getD .auto
  command := parsed.command

end Parsed

/-- The invocation that arguments stand for. -/
def Invocation.ofArguments (arguments : List String) : Except UsageError Invocation := do
  let parsed ← readArguments .program {} false arguments
  return parsed.invocation

end CommandLine
end SchemaCompiler
