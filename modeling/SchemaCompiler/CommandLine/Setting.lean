/-!
# Settings of the command line

A `Scope` is the program or one of its commands. It knows the commands below it,
the settings that may be given to it and those that must.
-/

namespace SchemaCompiler
namespace CommandLine

/-- When output is coloured. -/
inductive ColorMode where
  | always
  | auto
  | never
deriving Repr, DecidableEq, Inhabited

namespace ColorMode

/-- The mode of a name. -/
def ofText? : String → Option ColorMode
  | "always" => some .always
  | "auto" => some .auto
  | "never" => some .never
  | _ => none

end ColorMode

/-- The background that colours are chosen for. -/
inductive ThemeMode where
  | dark
  | light
  | auto
deriving Repr, DecidableEq, Inhabited

namespace ThemeMode

/-- The mode of a name. -/
def ofText? : String → Option ThemeMode
  | "dark" => some .dark
  | "light" => some .light
  | "auto" => some .auto
  | _ => none

end ThemeMode

/-- What can be given behind the program or a command. -/
inductive Setting where
  | input
  | override
  | output
  | visibility
  | verbose
  | quiet
  | only
  | color
  | theme
  | help
  | version
deriving Repr, DecidableEq, Inhabited

namespace Setting

/-- The name behind two dashes. -/
def name : Setting → String
  | .input => "input"
  | .override => "override"
  | .output => "output"
  | .visibility => "visibility"
  | .verbose => "verbose"
  | .quiet => "quiet"
  | .only => "only"
  | .color => "color"
  | .theme => "theme"
  | .help => "help"
  | .version => "version"

/-- The letter behind one dash. -/
def letter? : Setting → Option Char
  | .input => some 'i'
  | .override => some 'O'
  | .output => some 'o'
  | .verbose => some 'v'
  | .quiet => some 'q'
  | .help => some 'h'
  | .version => some 'V'
  | .visibility | .only | .color | .theme => none

/-- The setting needs a value. -/
def takesValue : Setting → Bool
  | .verbose | .quiet | .help | .version => false
  | _ => true

/-- The setting may be given more than once. -/
def isRepeatable : Setting → Bool
  | .override | .only => true
  | _ => false

/-- The setting may have the value: paths are not empty, and modes have names. -/
def allows (value : String) : Setting → Bool
  | .input | .override | .output => !value.isEmpty
  | .color => (ColorMode.ofText? value).isSome
  | .theme => (ThemeMode.ofText? value).isSome
  | _ => true

end Setting

/-- The program or one of its commands. -/
inductive Scope where
  | program
  | list
  | namespaces
  | generate
deriving Repr, DecidableEq, Inhabited

namespace Scope

/-- The commands below a scope. -/
def commands : Scope → List (String × Scope)
  | .program => [("list", .list), ("generate", .generate)]
  | .list => [("namespaces", .namespaces)]
  | .namespaces | .generate => []

/-- Settings that may be given. -/
def settings : Scope → List Setting
  | .program => [.color, .theme, .help, .version]
  | .list => [.color, .theme, .help]
  | .namespaces => [.input, .override, .color, .theme, .help]
  | .generate =>
      [.input, .override, .output, .visibility, .verbose, .quiet, .only, .color, .theme, .help]

/-- Settings that must be given. -/
def required : Scope → List Setting
  | .program | .list => []
  | .namespaces => [.input]
  | .generate => [.input, .output]

/-- A command must follow. -/
def needsCommand (scope : Scope) : Bool := !scope.commands.isEmpty

/-- The setting of a name. -/
def named? (scope : Scope) (name : String) : Option Setting :=
  scope.settings.find? fun setting => setting.name = name

/-- The setting of a letter. -/
def lettered? (scope : Scope) (letter : Char) : Option Setting :=
  scope.settings.find? fun setting => setting.letter? = some letter

end Scope
end CommandLine
end SchemaCompiler
