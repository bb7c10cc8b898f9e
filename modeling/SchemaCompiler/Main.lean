import SchemaCompiler.CommandLine.Run
import Std.Time.DateTime.Timestamp

/-!
# The program

`main` reads the documents that its arguments name, carries the invocation out, and
prints and writes what comes of it.
-/

namespace SchemaCompiler
namespace CommandLine

/-- Summary of the commands. -/
def usage : String :=
  "Typed client and resource schema generator for appliance APIs\n\n"
    ++ "Usage:\n"
    ++ "  appliance-codegen generate -i FILE [-O FILE]... -o DIR [--visibility VISIBILITY]\n"
    ++ "      [-v | -q] [--only NAMES]\n"
    ++ "  appliance-codegen list namespaces -i FILE [-O FILE]...\n"
    ++ "  appliance-codegen --help | --version\n\n"
    ++ "Every command takes --color always|auto|never and --theme dark|light|auto."

namespace UsageError

/-- What is printed instead of a result. -/
def message : UsageError → String
  | .version => "appliance-codegen 0.4.0"
  | .help | .nothingGiven => usage
  | .missingCommand => "error: a command is missing\n\n" ++ usage
  | .missingArgument => "error: a required argument is missing\n\n" ++ usage
  | .unknownCommand => "error: unknown command\n\n" ++ usage
  | .unknownArgument => "error: unknown argument\n\n" ++ usage
  | .invalidValue => "error: invalid value of an argument\n\n" ++ usage
  | .unexpectedValue => "error: unexpected value of an argument\n\n" ++ usage
  | .repeatedArgument => "error: an argument cannot be used twice\n\n" ++ usage

end UsageError

namespace Command

/-- The document that a command works on. -/
def sources : Command → Sources
  | .generate options => options.sources
  | .listNamespaces sources => sources

end Command

/-- A number with at least two digits. -/
def twoDigits (number : Nat) : String :=
  if number < 10 then "0" ++ toString number else toString number

/-- The time of day of a number of seconds. -/
def timeOfDay (seconds : Nat) : String :=
  s!"[{twoDigits (seconds / 3600 % 24)}:{twoDigits (seconds / 60 % 60)}:{twoDigits (seconds % 60)}]"

/-- The texts of those files that can be read. -/
def readFiles (paths : List String) : IO (List (String × String)) :=
  paths.filterMapM fun (path : String) => do
    try
      let text ← IO.FS.readFile path
      return some (path, text)
    catch _ => return none

/-- Writes a file below directories that are made for it. -/
def writeFile (path text : String) : IO Unit := do
  let names := (path.toList.splitOn '/').map String.ofList
  IO.FS.createDirAll (String.intercalate "/" names.dropLast)
  IO.FS.writeFile path text

/-- Carries out an invocation and tells the exit code. -/
def perform (invocation : Invocation) : IO UInt32 := do
  let sources := invocation.command.sources
  let texts ← readFiles (sources.base :: sources.overrides)
  let now ← Std.Time.Timestamp.now
  let some outcome := run {
      files := fun path => texts.lookup path
      time := timeOfDay now.toSecondsSinceUnixEpoch.val.toNat
      isTerminal := ← (← IO.getStdout).isTty
      colors := ← IO.getEnv "COLORFGBG" } invocation
    -- An endless run overflows the stack before it could get here.
    | return 134
  IO.print (Outcome.text outcome.output)
  IO.eprint (Outcome.text outcome.diagnostics)
  for (path, text) in outcome.files do
    writeFile path text
  match outcome.failure with
  | none => return 0
  | some failure =>
      IO.eprintln s!"Error: {failure.message}"
      return 1

end CommandLine
end SchemaCompiler

open SchemaCompiler.CommandLine in
/-- Runs the program on its arguments. -/
def main (arguments : List String) : IO UInt32 :=
  match Invocation.ofArguments arguments with
  | .ok invocation => perform invocation
  | .error error => do
      if error.isAnswer then IO.println error.message else IO.eprintln error.message
      return error.exitCode.toUInt32
