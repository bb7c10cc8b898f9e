import SchemaCompiler.CommandLine.Setting
import SchemaCompiler.Text.Numeral

/-!
# Colours

Texts are painted by the role they have. A theme gives every role a colour; without
colours only the return to the usual colour is written, in front and behind.
-/

namespace SchemaCompiler
namespace CommandLine

/-- A colour by its shares. -/
structure Color where
  red : Nat
  green : Nat
  blue : Nat
deriving Repr, DecidableEq, Inhabited

/-- What a text is in the output. -/
inductive Role where
  | timestamp
  | primary
  | accent
  | info
  | success
  | label
  | value
deriving Repr, DecidableEq, Inhabited

/-- Whether the background is dark or light. -/
inductive Theme where
  | dark
  | light
deriving Repr, DecidableEq, Inhabited

namespace Theme

/-- The colour of a role. -/
def color : Theme → Role → Color
  | .dark, .timestamp => ⟨118, 166, 166⟩
  | .dark, .primary => ⟨191, 126, 4⟩
  | .dark, .accent => ⟨166, 84, 55⟩
  | .dark, .info => ⟨118, 166, 166⟩
  | .dark, .success => ⟨118, 166, 166⟩
  | .dark, .label => ⟨217, 164, 4⟩
  | .dark, .value => ⟨242, 211, 56⟩
  | .light, .timestamp => ⟨92, 62, 38⟩
  | .light, .primary => ⟨70, 42, 25⟩
  | .light, .accent => ⟨211, 99, 70⟩
  | .light, .info => ⟨40, 111, 170⟩
  | .light, .success => ⟨34, 142, 90⟩
  | .light, .label => ⟨176, 103, 66⟩
  | .light, .value => ⟨199, 146, 76⟩

/-- Number of a background colour, from a text that ends with it behind a semicolon. -/
def backgroundIndex? (colors : String) : Option Nat :=
  let index := (colors.toList.reverse.takeWhile (· ≠ ';')).reverse
  let digits := match index with
    | '+' :: rest => rest
    | other => other
  (Text.numeral? 10 digits).filter fun value => value < 256

/-- The theme of a terminal that tells its colours; the first eight are dark. -/
def ofTerminal (colors : Option String) : Theme :=
  match colors.bind backgroundIndex? with
  | some index => if index < 8 then .dark else .light
  | none => .dark

/-- The theme of a mode. -/
def ofMode (colors : Option String) : ThemeMode → Theme
  | .dark => .dark
  | .light => .light
  | .auto => ofTerminal colors

end Theme

/-- How texts are painted. -/
structure Style where
  isColored : Bool
  theme : Theme
deriving Repr, DecidableEq, Inhabited

namespace Style

/-- The style of modes, on a terminal or not. -/
def ofModes (color : ColorMode) (theme : ThemeMode) (isTerminal : Bool)
    (colors : Option String) : Style where
  isColored := color = .always || (color = .auto && isTerminal)
  theme := .ofMode colors theme

/-- What sets the colour of following text. -/
def colorSign (color : Color) : String :=
  s!"\u001b[38;2;{color.red};{color.green};{color.blue}m"

/-- What returns to the usual colour. -/
def resetSign : String := "\u001b[39m"

/-- The text in the colour of a role. -/
def paint (style : Style) (role : Role) (text : String) : String :=
  let start := if style.isColored then colorSign (style.theme.color role) else resetSign
  start ++ text ++ resetSign

end Style
end CommandLine
end SchemaCompiler
