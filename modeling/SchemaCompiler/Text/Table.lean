/-!
# Tables

Tables in this library are written as text with entries between blanks and line
ends; `fields` is the list of these entries. The rows of a table of code points
list these in hexadecimal, one by one or as `first-last`. Reading them gives the
ranges, and `inRanges` tests a character against these.
-/

namespace SchemaCompiler
namespace Text

/-- The pieces of a text between blanks and line ends. -/
def fields (text : String) : List String :=
  let pieces := text.toList.splitBy fun left right => !left.isWhitespace && !right.isWhitespace
  (pieces.filter fun piece => !piece.all Char.isWhitespace).map String.ofList

/-- Value of a hexadecimal digit. -/
def hexDigit? (character : Char) : Option Nat :=
  if '0' ≤ character ∧ character ≤ '9' then some (character.toNat - '0'.toNat)
  else if 'a' ≤ character ∧ character ≤ 'f' then some (character.toNat - 'a'.toNat + 10)
  else if 'A' ≤ character ∧ character ≤ 'F' then some (character.toNat - 'A'.toNat + 10)
  else none

/-- Value of a hexadecimal numeral; a foreign character counts as zero. -/
def hexValue (digits : List Char) : Nat :=
  digits.foldl (fun value digit => value * 16 + (hexDigit? digit).getD 0) 0

/-- One entry of a table. -/
def codeRange (entry : List Char) : Nat × Nat :=
  let first := entry.takeWhile (· ≠ '-')
  match entry.dropWhile (· ≠ '-') with
  | [] => (hexValue first, hexValue first)
  | _ :: last => (hexValue first, hexValue last)

/-- The ranges that the rows of a table list. -/
def codeRanges (rows : List String) : List (Nat × Nat) :=
  rows.flatMap fun row => (fields row).map fun field => codeRange field.toList

/-- The character lies in one of the ranges. -/
def inRanges (ranges : List (Nat × Nat)) (character : Char) : Bool :=
  ranges.any fun (first, last) => first ≤ character.toNat && character.toNat ≤ last

end Text
end SchemaCompiler
