import SchemaCompiler.Text.Table

/-!
# Width of text

Number of columns that a text takes on a terminal: wide characters take two, and
marks that combine with the character in front take none.
-/

namespace SchemaCompiler
namespace Text

/-- Characters that take two columns. -/
def wideCharacters : List (Nat × Nat) := codeRanges
  ["1100-115F 231A-231B 2329-232A 23E9-23EC 23F0 23F3 25FD-25FE 2614-2615 2648-2653 267F 2693",
    "26A1 26AA-26AB 26BD-26BE 26C4-26C5 26CE 26D4 26EA 26F2-26F3 26F5 26FA 26FD 2705 270A-270B",
    "2728 274C 274E 2753-2755 2757 2795-2797 27B0 27BF 2B1B-2B1C 2B50 2B55 2E80-303E 3041-3247",
    "3250-4DBF 4E00-A4C6 A960-A97C AC00-D7A3 F900-FAFF FE10-FE19 FE30-FE6B FF01-FF60 FFE0-FFE6",
    "16FE0-18AFF 1B000-1B2FB 1F004 1F0CF 1F18E 1F191-1F19A 1F200-1F320 1F32D-1F335 1F337-1F37C",
    "1F37E-1F393 1F3A0-1F3CA 1F3CF-1F3D3 1F3E0-1F3F0 1F3F4 1F3F8-1F43E 1F440 1F442-1F4FC",
    "1F4FF-1F53D 1F54B-1F54E 1F550-1F567 1F57A 1F595-1F596 1F5A4 1F5FB-1F64F 1F680-1F6C5 1F6CC",
    "1F6D0-1F6D2 1F6D5-1F6D7 1F6DC-1F6DF 1F6EB-1F6EC 1F6F4-1F6FC 1F7E0-1F7EB 1F7F0 1F90C-1F93A",
    "1F93C-1F945 1F947-1F9FF 1FA70-1FAF8 20000-2FFFD 30000-3FFFD"]

/-- Characters that take no column. -/
def combiningCharacters : List (Nat × Nat) := codeRanges
  ["0-1F 7F-9F 300-36F 483-489 591-5BD 5BF 5C1-5C2 5C4-5C5 5C7 610-61A 64B-65F 670 6D6-6DC",
    "6DF-6E4 6E7-6E8 6EA-6ED 1160-11FF 1AB0-1ACE 1DC0-1DFF 200B-200F 202A-202E 2060-2064",
    "20D0-20F0 302A-302D 3099-309A FE00-FE0F FE20-FE2F FEFF E0100-E01EF"]

/-- Number of columns of a character. -/
def characterWidth (character : Char) : Nat :=
  if inRanges combiningCharacters character then 0
  else if inRanges wideCharacters character then 2
  else 1

/-- Number of columns of a text. -/
def width (text : String) : Nat := (text.toList.map characterWidth).foldr (· + ·) 0

end Text
end SchemaCompiler
