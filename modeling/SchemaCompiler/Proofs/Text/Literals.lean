import Mathlib.Data.Nat.Digits.Defs
import SchemaCompiler.Text.Quoted

/-!
# Values of string literals

A string literal of generated code stands for the text between its quotes, with
every escape replaced by the character that it names. `literalValue?` reads a
literal as a compiler does, and the literal that `literalText` writes for a text
has that text as its value, whatever characters the text is made of.
-/

namespace SchemaCompiler
namespace Text

/-- The character that a letter behind a backslash stands for. -/
def shortEscape? (letter : Char) : Option Char :=
  if letter = 'n' then some '\n'
  else if letter = 'r' then some '\r'
  else if letter = 't' then some '\t'
  else if letter = '0' then some (Char.ofNat 0)
  else if letter = '\\' ∨ letter = '"' ∨ letter = '\x27' then some letter
  else none

/-- What stands in front of the character that a reader of a literal meets next. -/
inductive EscapeState where
  /-- No part of an escape. -/
  | outside
  | backslash
  /-- The mark of an escape of two digits, and the value of the first of them. -/
  | byte (high : Option Nat)
  /-- The mark of an escape by number. -/
  | mark
  /-- Digits in braces with a value, and how many more there may be. -/
  | number (left value : Nat)
deriving Repr, DecidableEq

/-- The text of the characters between the quotes of a literal. -/
def readLiteral : EscapeState → List Char → Option (List Char)
  | .outside, [] => some []
  | _, [] => none
  | .outside, character :: rest =>
      if character = '\\' then readLiteral .backslash rest
      else if character = '"' ∨ character = '\r' then none
      else (readLiteral .outside rest).map (character :: ·)
  | .backslash, character :: rest =>
      if character = 'x' then readLiteral (.byte none) rest
      else if character = 'u' then readLiteral .mark rest
      else
        (shortEscape? character).bind fun named =>
          (readLiteral .outside rest).map (named :: ·)
  | .byte none, character :: rest =>
      (hexDigit? character).bind fun high => readLiteral (.byte (some high)) rest
  | .byte (some high), character :: rest =>
      (hexDigit? character).bind fun low =>
        if high * 16 + low < 0x80 then
          (readLiteral .outside rest).map (Char.ofNat (high * 16 + low) :: ·)
        else none
  | .mark, character :: rest =>
      if character = '\x7b' then readLiteral (.number 6 0) rest else none
  | .number left value, character :: rest =>
      if character = '\x7d' then
        if left < 6 ∧ value.isValidChar then
          (readLiteral .outside rest).map (Char.ofNat value :: ·)
        else none
      else
        match left with
        | 0 => none
        | left + 1 =>
            (hexDigit? character).bind fun digit =>
              readLiteral (.number left (value * 16 + digit)) rest

/-- The text that a literal in quotes stands for. -/
def literalValue? (literal : String) : Option String :=
  match literal.toList with
  | [] => none
  | first :: rest =>
      if first = '"' ∧ rest.getLast? = some '"' then
        (readLiteral .outside rest.dropLast).map String.ofList
      else none

/-! ## Digits -/

theorem hexDigit?_digitChar
    {digit : Nat}
    (small : digit < 16) :
    hexDigit? digit.digitChar = some digit ∧ digit.digitChar ≠ '\x7d' := by
  have each : ∀ digit : Fin 16,
      hexDigit? digit.val.digitChar = some digit.val ∧ digit.val.digitChar ≠ '\x7d' := by
    decide
  exact each ⟨digit, small⟩

theorem readLiteral_digit
    {left value digit : Nat}
    (small : digit < 16)
    (rest : List Char) :
    readLiteral (.number (left + 1) value) (digit.digitChar :: rest) =
      readLiteral (.number left (value * 16 + digit)) rest := by
  obtain ⟨valued, notClosing⟩ := hexDigit?_digitChar small
  simp [readLiteral, notClosing, valued]

/-- The digits of a number are read to its value. -/
theorem readLiteral_toDigits
    (number : Nat)
    {left : Nat}
    (fits : (Nat.toDigits 16 number).length ≤ left)
    (rest : List Char) :
    readLiteral (.number left 0) (Nat.toDigits 16 number ++ rest) =
      readLiteral (.number (left - (Nat.toDigits 16 number).length) number) rest := by
  induction number using Nat.strong_induction_on generalizing rest with
  | _ number hypothesis =>
      by_cases single : number < 16
      · rw [Nat.toDigits_of_lt_base single, List.length_singleton] at fits ⊢
        obtain ⟨left, rfl⟩ := Nat.exists_eq_add_of_le' fits
        rw [List.singleton_append, readLiteral_digit single]
        simp
      · have split := Nat.toDigits_of_base_le (b := 16) (by decide) (Nat.le_of_not_lt single)
        rw [split, List.length_append, List.length_singleton] at fits ⊢
        rw [List.append_assoc, hypothesis (number / 16) (by omega) (by omega)]
        obtain ⟨more, same⟩ : ∃ more, left - (Nat.toDigits 16 (number / 16)).length = more + 1 :=
          ⟨left - (Nat.toDigits 16 (number / 16)).length - 1, by omega⟩
        have remaining : left - ((Nat.toDigits 16 (number / 16)).length + 1) = more := by omega
        rw [same, remaining, List.singleton_append, readLiteral_digit (by omega)]
        congr 2
        omega

/-! ## Escapes -/

theorem toNat_lt_pow (character : Char) : character.toNat < 16 ^ 6 := by
  have valid : character.toNat.isValidChar := character.valid
  rcases valid with low | ⟨_, high⟩ <;> omega

/-- A character by its number is read back. -/
theorem readLiteral_numberEscape
    (character : Char)
    (rest : List Char) :
    readLiteral .outside (numberEscape character ++ rest) =
      (readLiteral .outside rest).map (character :: ·) := by
  have short : (Nat.toDigits 16 character.toNat).length ≤ 6 :=
    Nat.toDigits_length 16 character.toNat 6 (by decide) (toNat_lt_pow character)
  have nonempty : 0 < (Nat.toDigits 16 character.toNat).length :=
    List.length_pos_iff.mpr Nat.toDigits_ne_nil
  have valid : character.toNat.isValidChar := character.valid
  have opened : readLiteral .outside (numberEscape character ++ rest) =
      readLiteral (.number 6 0) (Nat.toDigits 16 character.toNat ++ '\x7d' :: rest) := by
    simp [numberEscape, readLiteral]
  have fewer : 6 - (Nat.toDigits 16 character.toNat).length < 6 := by omega
  rw [opened, readLiteral_toDigits _ short]
  simp [readLiteral, fewer, valid, Char.ofNat_toNat]

/-- A character as it stands between quotes is read back. -/
theorem readLiteral_escapedCharacter
    (character : Char)
    (rest : List Char) :
    readLiteral .outside (escapedCharacter character ++ rest) =
      (readLiteral .outside rest).map (character :: ·) := by
  unfold escapedCharacter
  split
  next same => simp [same, readLiteral, shortEscape?]
  split
  next same => simp [same, readLiteral, shortEscape?]
  split
  next same => simp [same, readLiteral, shortEscape?]
  split
  next same => simp [same, readLiteral, shortEscape?]
  split
  next same => simp [same, readLiteral, shortEscape?]
  next noTab noReturn noNewline noQuote noBackslash =>
    have itself : readLiteral .outside ([character] ++ rest) =
        (readLiteral .outside rest).map (character :: ·) := by
      simp [readLiteral, noBackslash, noQuote, noReturn]
    split
    · exact itself
    · split
      · exact readLiteral_numberEscape character rest
      · exact itself

/-- The character zero is read back in either spelling. -/
theorem readLiteral_zero
    {character : Char}
    (zero : character.toNat = 0)
    (beforeDigit : Bool)
    (rest : List Char) :
    readLiteral .outside
        ((if beforeDigit then ['\\', 'x', '0', '0'] else ['\\', '0']) ++ rest) =
      (readLiteral .outside rest).map (character :: ·) := by
  have same : character = Char.ofNat 0 := by rw [← zero, Char.ofNat_toNat]
  have digit : hexDigit? '0' = some 0 := by decide
  cases beforeDigit <;> simp [readLiteral, shortEscape?, digit, same]

/-- The characters of a literal are read back. -/
theorem readLiteral_literalCharacters (characters : List Char) :
    readLiteral .outside (literalCharacters characters) = some characters := by
  induction characters with
  | nil => rfl
  | cons character rest hypothesis =>
      have read : readLiteral .outside (literalCharacters (character :: rest)) =
          (readLiteral .outside (literalCharacters rest)).map (character :: ·) := by
        rw [literalCharacters]
        split
        next zero => exact readLiteral_zero zero _ _
        next => exact readLiteral_escapedCharacter character _
      rw [read, hypothesis, Option.map_some]

/-- The literal that is written for a text has this text as its value. -/
theorem literalValue?_literalText (text : String) :
    literalValue? (literalText text) = some text := by
  simp [literalValue?, literalText, readLiteral_literalCharacters]

end Text
end SchemaCompiler
