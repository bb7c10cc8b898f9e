import SchemaCompiler.CommandLine.Style
import SchemaCompiler.Generation.Run

/-!
# Reports of generation

What a generation run tells while it goes on: what it reads, how much it made, what
it could not make and what it writes. A quiet report tells nothing, and a verbose
one tells more.
-/

namespace SchemaCompiler
namespace CommandLine

open SchemaCompiler.Generation (GeneratedFile Output Project Statistics Warning)

/-- How much is told and how it looks. -/
structure Report where
  style : Style
  /-- The time in front of a message. -/
  time : String
  isVerbose : Bool
  isQuiet : Bool
deriving Repr, DecidableEq, Inhabited

namespace Report

/-- A message behind its time. -/
def timed (report : Report) (message : String) : String :=
  report.style.paint .timestamp report.time ++ " " ++ message

/-- A message, unless the report is quiet. -/
def inform (report : Report) (message : String) : List String :=
  if report.isQuiet then [] else [report.timed message]

/-- A message of a verbose report. -/
def detail (report : Report) (message : String) : List String :=
  if report.isVerbose then report.inform (report.style.paint .info message) else []

/-- A message that a step begins. -/
def announce (report : Report) (message : String) : List String :=
  report.inform (report.style.paint .primary message)

/-- A line of the statistics. -/
def count (report : Report) (label value : String) : String :=
  "            " ++ report.style.paint .label label ++ " " ++ report.style.paint .value value

/-- A line of the statistics that is left out for zero. -/
def countSome (report : Report) (label : String) (value : Nat) : List String :=
  if value = 0 then [] else [report.count label (toString value)]

/-- Tells which files are read. -/
def loading (report : Report) (base : String) (overrides : List String) : List String :=
  report.announce s!"Loading schema document from: {base}"
    ++ overrides.flatMap fun path => report.detail s!"Applying override: {path}"

/-- Tells what is made ready, and the names that were asked for. -/
def generating (report : Report) (project : Project) (only : List String) : List String :=
  let namespaces := project.namespaces.length
  let entries := project.registry.size
  let listed := String.intercalate ", " only
  report.announce s!"Generating {namespaces} namespaces from {entries} schema entries..."
    ++ if only.isEmpty then [] else report.detail s!"Restricted to: {listed}"

/-- Tells the ids of a cycle. -/
def cycleLine (report : Report) (number : Nat) (cycle : List String) : String :=
  let ids := String.intercalate " -> " cycle
  "              " ++ report.style.paint .accent s!"Cycle {number}" ++ ": "
    ++ report.style.paint .info ids

/-- Tells the cycles, numbered from one. -/
def cycleLines (report : Report) (cycles : List (List String)) : List String :=
  report.countSome "Cycles:" cycles.length
    ++ if report.isVerbose then
        cycles.zipIdx.map fun (cycle, index) => report.cycleLine (index + 1) cycle
      else []

/-- Tells how much was made. -/
def statistics (report : Report) (counts : Statistics) : List String :=
  let shared :=
    if counts.sharedTypes = 0 then [] else [report.count "" s!"{counts.sharedTypes} shared"]
  if report.isQuiet then []
  else
    [report.count "Namespaces generated:" (toString counts.namespaces),
      report.count "Functions converted:" (toString counts.functions),
      report.count "Structs generated:" (toString counts.structs)]
    ++ shared
    ++ [report.count "Attributes generated:" (toString counts.attributes)]
    ++ report.countSome "Encrypted fields:" counts.encryptedFields
    ++ report.countSome "Warnings:" counts.warnings.length
    ++ report.cycleLines counts.cycles

/-- A warning that is told: one about something left out, or any if verbose. -/
def isTold (report : Report) (warning : Warning) : Bool :=
  !report.isQuiet && (warning.isSkippedItem || report.isVerbose)

/-- Tells a warning. -/
def warningLine (report : Report) (warning : Warning) : String :=
  let label := if warning.isSkippedItem then "Skipped:" else "Warning:"
  report.style.paint .accent label ++ " " ++ report.style.paint .primary warning.message

/-- Tells the warnings. -/
def warningLines (report : Report) (warnings : List Warning) : List String :=
  (warnings.filter report.isTold).map report.warningLine

/-- Tells which files are written. -/
def writing (report : Report) (output : String) (files : List GeneratedFile) : List String :=
  report.announce s!"Writing {files.length} files to: {output}"
    ++ files.flatMap fun file => report.detail file.path.text

/-- Tells that all is done. -/
def done (report : Report) : List String :=
  if report.isQuiet then []
  else
    ["", report.timed
      (report.style.paint .success "Successfully generated client and resource sources")]

end Report
end CommandLine
end SchemaCompiler
