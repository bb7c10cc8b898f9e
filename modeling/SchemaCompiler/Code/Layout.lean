/-!
# Layout of code

Code is laid out as nested boxes of words with gaps between them. A box whose text
fits on the rest of the line keeps it there; in any other box gaps turn into line
ends, either all of them or only those behind which the text does not fit. What
has to fit behind a gap or box reaches as far as the next gap outside of it.
-/

namespace SchemaCompiler
namespace Code

/-- Width of a line. -/
def lineWidth : Nat := 89

/-- Least width that a line offers, however far it is indented. -/
def leastWidth : Nat := 60

/-- Blanks that no line has room for. -/
def endlessBlanks : Nat := 0xffff

/-- A place where a line may end. -/
structure Gap where
  /-- Blanks that stand for the gap when the line goes on. -/
  blanks : Nat
  /-- Change of the indentation behind a line end. -/
  offset : Int
  /-- Text in front of a line end. -/
  trailing : String
  /-- The line always goes on. -/
  isClosed : Bool
  /-- The gap is left out at the end of a box. -/
  isLeading : Bool
deriving Repr, DecidableEq, Inhabited

/-- Which gaps of a box that does not fit turn into line ends. -/
inductive Breaking where
  | all
  | needed
deriving Repr, DecidableEq, Inhabited

/-- Part of a layout. -/
inductive Layout where
  | word (text : String)
  | gap (gap : Gap)
  | box (offset : Int) (breaking : Breaking) (contents : List Layout)
deriving Repr, Inhabited

namespace Layout

/-- A gap of some blanks. -/
def blank (blanks : Nat) : Layout := .gap ⟨blanks, 0, "", false, false⟩

/-- A gap that turns into a line end wherever one is possible. -/
def lineEnd : Layout := blank endlessBlanks

/-- A line end at the start of the contents of a box, if there are any. -/
def leadingLineEnd : Layout := .gap ⟨endlessBlanks, 0, "", false, true⟩

/-- A gap without blanks at which the line always goes on. -/
def closedGap : Layout := .gap ⟨0, 0, "", true, false⟩

/-- A gap behind the last part of a list, with a comma in front of a line end. -/
def trailingComma : Layout := .gap ⟨0, 0, ",", false, false⟩

/-- The part with the indentation behind it changed, if it is a gap. -/
def shift (offset : Int) : Layout → Layout
  | .gap place => .gap { place with offset := place.offset + offset }
  | other => other

/-- The parts with the indentation behind the last of them changed. -/
def shiftLast (offset : Int) : List Layout → List Layout
  | [] => []
  | [last] => [shift offset last]
  | first :: rest => first :: shiftLast offset rest

/-- The parts without a leading gap at the end. -/
def dropLeading : List Layout → List Layout
  | [] => []
  | [.gap place] => if place.isLeading then [] else [.gap place]
  | first :: rest => first :: dropLeading rest

/-- A box around parts; a box around a single gap is nothing. -/
def boxed (offset : Int) (breaking : Breaking) (contents : List Layout) : List Layout :=
  match contents with
  | [.gap _] => []
  | _ => [.box offset breaking (dropLeading contents)]

/-- A box of which all gaps turn into line ends if it does not fit. -/
def block (offset : Int) (contents : List Layout) : List Layout := boxed offset .all contents

/-- A box of which only the needed gaps turn into line ends. -/
def flow (offset : Int) (contents : List Layout) : List Layout := boxed offset .needed contents

mutual

/-- Width of a part on one line. -/
def width : Layout → Nat
  | .word text => text.utf8ByteSize
  | .gap place => place.blanks
  | .box _ _ contents => widthAll contents

/-- Width of parts on one line. -/
def widthAll : List Layout → Nat
  | [] => 0
  | first :: rest => width first + widthAll rest

end

/-- Width up to the first gap among parts that `after` follows. -/
def reach (after : Nat) : List Layout → Nat
  | [] => after
  | .gap _ :: _ => 0
  | first :: rest => width first + reach after rest

/-- The text written so far. -/
structure Page where
  text : String
  /-- Room on the current line. -/
  room : Int
  indentation : Int
  /-- Blanks to write in front of the next word. -/
  owed : Int
deriving Repr, Inhabited

namespace Page

/-- A page without text. -/
def empty : Page := ⟨"", lineWidth, 0, 0⟩

/-- The page with the blanks it owes written. -/
def settle (page : Page) : Page :=
  { page with text := page.text ++ String.ofList (List.replicate page.owed.toNat ' '), owed := 0 }

/-- The page with a word. -/
def write (page : Page) (word : String) : Page :=
  let settled := page.settle
  { settled with text := settled.text ++ word, room := page.room - word.utf8ByteSize }

/-- The page with a gap that does not end the line. -/
def goOn (page : Page) (gap : Gap) : Page :=
  { page with owed := page.owed + gap.blanks, room := page.room - gap.blanks }

/-- The page with a gap that ends the line. -/
def endLine (page : Page) (gap : Gap) : Page :=
  let ended := if gap.trailing = "" then page
    else { page.settle with text := page.settle.text ++ gap.trailing }
  let indentation := page.indentation + gap.offset
  { ended with
    text := ended.text ++ "\n"
    owed := indentation
    room := max (lineWidth - indentation) leastWidth }

end Page

/-- The box that is being written fits on the line, or it has its gaps broken. -/
inductive Frame where
  | fits
  | broken (breaking : Breaking)
deriving Repr, DecidableEq, Inhabited

/-- The gap ends the line, where `size` is the width of the gap and of what has to
fit behind it. -/
def Frame.ends (frame : Frame) (gap : Gap) (size : Nat) (room : Int) : Bool :=
  !gap.isClosed &&
    match frame with
    | .fits => false
    | .broken .all => true
    | .broken .needed => room < size

mutual

/-- Writes one part that text of width `after` follows without a gap. -/
def write (frame : Frame) (after : Nat) (page : Page) : Layout → Page
  | .word text => page.write text
  | .gap place =>
      if frame.ends place (place.blanks + after) page.room then page.endLine place
      else page.goOn place
  | .box offset breaking contents =>
      if page.room < widthAll contents + after then
        let opened := { page with indentation := page.indentation + offset }
        { writeAll (.broken breaking) after opened contents with indentation := page.indentation }
      else writeAll .fits after page contents

/-- Writes parts one after another. -/
def writeAll (frame : Frame) (after : Nat) (page : Page) : List Layout → Page
  | [] => page
  | first :: rest => writeAll frame after (write frame (reach after rest) page first) rest

end

/-- The text of a layout. -/
def text (layout : List Layout) : String := (writeAll .fits 0 .empty layout).text

end Layout
end Code
end SchemaCompiler
