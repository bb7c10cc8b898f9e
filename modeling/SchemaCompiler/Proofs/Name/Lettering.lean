import SchemaCompiler.Name.Standard
import SchemaCompiler.Proofs.Name.Words

/-!
# Laws of letterings

Names come out as words whatever a lettering does with them. What else is proved of names rests on
two laws: ASCII text is spelled as it stands, and a word becomes a capitalized form of itself. The
standard lettering keeps both.
-/

namespace SchemaCompiler
namespace Name

/-- Words of a name are words, however the name is spelled. -/
theorem isWord_of_mem_words
    [Lettering]
    {name : String}
    {word : List Char}
    (member : word ∈ words name) :
    IsWord word := by
  refine isWord_of_mem_splitWords (fun character inName => ?_) member
  rw [sanitize] at inName
  split at inName
  next => cases inName
  next => exact isWordCharacter_of_mem_cleaned inName

namespace Lettering

/-- Text in ASCII is spelled as it stands. -/
def KeepsAscii (lettering : Lettering) : Prop :=
  ∀ text : List Char, (∀ character ∈ text, character.val < 128) → lettering.spell text = text

theorem keepsAscii_standard : standard.KeepsAscii := fun _ => Text.asciiSpelling_of_ascii

/-- Words change in nothing but the case of letters, and a letter at the beginning becomes a
capital. -/
structure Capitalizes (lettering : Lettering) : Prop where
  letters : ∀ word, IsWord word → (lettering.capitalize word).map Char.toLower = word
  head : ∀ first rest, IsWord (first :: rest) →
    (lettering.capitalize (first :: rest)).head? = some first.toUpper

theorem capitalizes_standard : standard.Capitalizes where
  letters := by
    rintro (_ | ⟨first, rest⟩) ⟨visible, small⟩
    · exact absurd rfl visible
    · obtain ⟨own, others⟩ := List.forall_mem_cons.mp small
      exact congrArg₂ List.cons (toLower_toUpper own) (map_toLower others)
  head := fun _ _ _ => rfl

end Lettering
end Name
end SchemaCompiler
