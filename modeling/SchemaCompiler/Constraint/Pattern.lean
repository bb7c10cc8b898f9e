/-!
# Patterns

Enumerated values and a pattern of the same field become one pattern that accepts
either. Values are escaped, so each matches as it is written.
-/

namespace SchemaCompiler
namespace Constraint

/-- Signs that have a meaning of their own in a pattern. -/
def patternSigns : List Char :=
  ['\\', '.', '+', '*', '?', '(', ')', '|', '[', ']', '\x7b', '\x7d', '^', '$', '#', '&', '-', '~']

/-- The pattern that matches a text as it is written. -/
def escapePattern : List Char → List Char
  | [] => []
  | character :: rest =>
      if patternSigns.contains character then '\\' :: character :: escapePattern rest
      else character :: escapePattern rest

theorem escapePattern_cons (character : Char) (rest : List Char) :
    escapePattern (character :: rest) =
      if patternSigns.contains character then '\\' :: character :: escapePattern rest
      else character :: escapePattern rest := rfl

/-- The pattern that accepts one of the values as a whole or what `pattern`
accepts. -/
def mergedPattern (values : List String) (pattern : String) : String :=
  let alternatives := values.map fun value => String.ofList (escapePattern value.toList)
  "^(?:" ++ String.intercalate "|" alternatives ++ ")$|" ++ pattern

end Constraint
end SchemaCompiler
