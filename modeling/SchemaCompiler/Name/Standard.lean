import SchemaCompiler.Name.Words
import SchemaCompiler.Text.SpellingTable
import SchemaCompiler.Text.Table

/-!
# The standard lettering

The lettering that the program runs with. Every character outside ASCII is
replaced by its spelling from the tables, ASCII text stays as it is, and the
first letter of a word becomes a capital.

The tables hold the alphabets and ideographs that names are written in most
often. A character that no table has is silent: all of Khmer, Ethiopic and Lao,
and every ideograph that is not listed. Nothing but these spellings is particular
to this lettering.
-/

namespace SchemaCompiler
namespace Text

/-- Spelling of the character `code` in a listed alphabet. -/
def alphabetSpelling? (code : Nat) : Option String :=
  alphabetSpellings.findSome? fun (first, spellings) =>
    if first ≤ code then
      (fields spellings)[code - first]?.map fun spelling =>
        if spelling = "-" then "" else spelling
    else none

/-- Code point of the Devanagari letter that stands where `code` stands in the block
of its own script of India; any other code point is its own. -/
def devanagariTwin (code : Nat) : Nat :=
  if indicRange.1 ≤ code ∧ code ≤ indicRange.2 then
    indicRange.1 + (code - indicRange.1) % indicBlock
  else code

/-- Reading of a listed ideograph. -/
def ideographSpelling? (character : Char) : Option String :=
  (fields ideographSpellings).findSome? fun entry =>
    match entry.toList with
    | listed :: reading => if listed = character then some (String.ofList reading) else none
    | [] => none

/-- Short name of a listed picture, set off from its neighbours. -/
def pictureSpelling? (character : Char) : Option String :=
  (fields pictureSpellings).findSome? fun entry =>
    match entry.toList with
    | listed :: name =>
        if listed = character then some (String.ofList ('_' :: name ++ ['_'])) else none
    | [] => none

/-- The word with its first letter in upper case. -/
def capitalized (word : String) : String :=
  match word.toList with
  | first :: rest => String.ofList (first.toUpper :: rest)
  | [] => ""

/-- Spelling of a Hangul syllable from its leading consonant, vowel and closing
consonant. -/
def hangulSpelling? (code : Nat) : Option String :=
  if 0xAC00 ≤ code ∧ code ≤ 0xD7A3 then
    let index := code - 0xAC00
    let leading := hangulLeading[index / 588]?.getD ""
    let vowel := hangulVowels[index % 588 / 28]?.getD ""
    let closing := hangulClosing[index % 28]?.getD ""
    some (capitalized (leading ++ vowel ++ closing))
  else none

/-- The sign only separates what stands beside it. -/
def isSeparator (code : Nat) : Bool :=
  separatorRanges.any fun (first, last) => first ≤ code && code ≤ last

/-- ASCII spelling of one character; a character in no table is silent. -/
def characterSpelling (character : Char) : List Char :=
  if character.val < 128 then [character]
  else
    let code := character.toNat
    let spelling :=
      pictureSpelling? character
        <|> hangulSpelling? code
        <|> alphabetSpelling? (devanagariTwin code)
        <|> ideographSpelling? character
        <|> (if isSeparator code then some "_" else none)
    (spelling.getD "").toList

/-- ASCII spelling of a text, one character after another. -/
def asciiSpelling (text : List Char) : List Char :=
  text.flatMap characterSpelling

@[simp] theorem characterSpelling_of_ascii
    {character : Char}
    (ascii : character.val < 128) :
    characterSpelling character = [character] := by
  simp [characterSpelling, ascii]

@[simp] theorem asciiSpelling_cons
    (character : Char)
    (rest : List Char) :
    asciiSpelling (character :: rest) =
      characterSpelling character ++ asciiSpelling rest := by
  simp [asciiSpelling]

/-- Plain ASCII text is spelled as it stands. -/
theorem asciiSpelling_of_ascii
    {text : List Char}
    (ascii : ∀ character ∈ text, character.val < 128) :
    asciiSpelling text = text := by
  induction text with
  | nil => rfl
  | cons first rest hypothesis =>
      have firstAscii := ascii first (by simp)
      have restAscii := hypothesis fun character member => ascii character (by simp [member])
      simp [firstAscii, restAscii]

end Text

namespace Name

/-- The word with its first letter in upper case. -/
def capitalize : List Char → List Char
  | [] => []
  | first :: rest => first.toUpper :: rest

/-- The lettering of the program. -/
instance standard : Lettering where
  spell := Text.asciiSpelling
  capitalize := capitalize

end Name
end SchemaCompiler
