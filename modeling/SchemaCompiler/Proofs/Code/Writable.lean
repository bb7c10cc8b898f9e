import SchemaCompiler.Code.Item

/-!
# Names that can be written

Names of letters and underscores of ASCII are identifiers, so items that have no other names
can be written.
-/

namespace SchemaCompiler
namespace Code

/-- A table that lists the letters of ASCII has them in its ranges. -/
theorem inRanges_of_isAlpha
    {ranges : List (Nat × Nat)}
    {character : Char}
    (upper : (0x41, 0x5A) ∈ ranges)
    (lower : (0x61, 0x7A) ∈ ranges)
    (letter : character.isAlpha) :
    Text.inRanges ranges character := by
  rw [Text.inRanges, List.any_eq_true]
  rcases Bool.or_eq_true_iff.mp letter with inside | inside
  · obtain ⟨above, below⟩ := of_decide_eq_true inside
    exact ⟨_, upper, Bool.and_eq_true_iff.mpr ⟨decide_eq_true above, decide_eq_true below⟩⟩
  · obtain ⟨above, below⟩ := Bool.and_eq_true_iff.mp inside
    exact ⟨_, lower, Bool.and_eq_true_iff.mpr
      ⟨decide_eq_true (of_decide_eq_true above), decide_eq_true (of_decide_eq_true below)⟩⟩

theorem isIdentifierStart_of_isAlpha
    {character : Char}
    (letter : character.isAlpha) :
    Name.isIdentifierStart character := by
  have listed : Text.identifierStarts.take 2 = [(0x41, 0x5A), (0x61, 0x7A)] := by decide +kernel
  have among : ∀ range ∈ [(0x41, 0x5A), (0x61, 0x7A)], range ∈ Text.identifierStarts :=
    fun range member => List.mem_of_mem_take (listed ▸ member)
  rw [Name.isIdentifierStart, Bool.or_eq_true]
  exact .inr (inRanges_of_isAlpha (among _ (by decide)) (among _ (by decide)) letter)

theorem isIdentifierContinuation_of_isAlpha
    {character : Char}
    (letter : character.isAlpha ∨ character = '_') :
    Name.isIdentifierContinuation character := by
  have listed : Text.identifierContinuations.take 4 =
      [(0x30, 0x39), (0x41, 0x5A), (0x5F, 0x5F), (0x61, 0x7A)] := by decide +kernel
  have among : ∀ range ∈ [(0x30, 0x39), (0x41, 0x5A), (0x5F, 0x5F), (0x61, 0x7A)],
      range ∈ Text.identifierContinuations :=
    fun range member => List.mem_of_mem_take (listed ▸ member)
  rcases letter with letter | rfl
  · exact inRanges_of_isAlpha (among _ (by decide)) (among _ (by decide)) letter
  · exact List.any_eq_true.mpr ⟨_, among (0x5F, 0x5F) (by decide), by decide⟩

/-- The name consists of letters and underscores of ASCII. -/
def isPlain (name : String) : Bool :=
  name ≠ "" && name.toList.all fun character => character.isAlpha || character = '_'

theorem isWritable_of_isPlain
    {name : String}
    (plain : isPlain name) :
    Name.isWritable name := by
  simp only [isPlain, Bool.and_eq_true, decide_eq_true_eq, List.all_eq_true,
    Bool.or_eq_true] at plain
  obtain ⟨nonempty, letters⟩ := plain
  have unprefixed : ¬Name.rawPrefix.isPrefixOf name.toList := fun isRaw => by
    have sign : '#' ∈ name.toList :=
      (List.isPrefixOf_iff_prefix.mp isRaw).subset (by decide)
    exact absurd (letters '#' sign) (by decide)
  rw [Name.isWritable, if_neg unprefixed]
  cases characters : name.toList with
  | nil => exact absurd (String.toList_eq_nil_iff.mp characters) nonempty
  | cons first rest =>
      rw [characters, List.forall_mem_cons] at letters
      simp only [Bool.and_eq_true, List.all_eq_true]
      refine ⟨?_, fun character member => isIdentifierContinuation_of_isAlpha (letters.2 _ member)⟩
      rcases letters.1 with letter | rfl
      · exact isIdentifierStart_of_isAlpha letter
      · rfl

/-- All names of the items are plain. -/
def arePlain (items : List Item) : Bool := (items.flatMap Item.names).all isPlain

/-- Items whose names are plain can be written. -/
theorem unwritable?_eq_none
    {items : List Item}
    (plain : arePlain items) :
    unwritable? items = none := by
  rw [unwritable?, List.find?_eq_none]
  intro name member
  simp [isWritable_of_isPlain (List.all_eq_true.mp plain name member)]

end Code
end SchemaCompiler
