import SchemaCompiler.Proofs.Name.Spelling

/-!
# Escaping

A display name in snake case gives way to keywords and to digits at its beginning by an underscore
at one of its ends, or by a raw prefix. No display name has an underscore there or a sign of the
prefix, so cleaning brings the display name back: escaping hides nothing.
-/

namespace SchemaCompiler
namespace Name

/-- The text is a display name in snake case: words joined by underscores. -/
def IsSnake (display : String) : Prop :=
  ∃ words : List (List Char), (∀ word ∈ words, IsWord word) ∧
    display = String.ofList (['_'].intercalate words)

theorem isSnake_snake [Lettering] (name : String) : IsSnake (snake name) :=
  ⟨words name, fun _ => isWord_of_mem_words, rfl⟩

namespace IsSnake

variable {display : String}

theorem isClean (isSnake : IsSnake display) : IsClean display.toList := by
  obtain ⟨words, each, rfl⟩ := isSnake
  rw [String.toList_ofList]
  exact isClean_intercalate each

theorem characters (isSnake : IsSnake display) :
    ∀ character ∈ display.toList,
      character.isLower = true ∨ character.isDigit = true ∨ character = '_' := by
  obtain ⟨words, each, rfl⟩ := isSnake
  intro character member
  rw [String.toList_ofList] at member
  exact characters_intercalate each member

/-- Cleaning changes nothing in a display name. -/
theorem cleaned_eq (isSnake : IsSnake display) : cleaned display.toList = display.toList :=
  isSnake.isClean.cleaned_eq

theorem cleaned_underscore_append (isSnake : IsSnake display) :
    cleaned ("_" ++ display).toList = display.toList := by
  rw [String.toList_append]
  exact (cleaned_underscore_cons _).trans isSnake.cleaned_eq

theorem cleaned_append_underscore (isSnake : IsSnake display) :
    cleaned (display ++ "_").toList = display.toList := by
  rw [String.toList_append]
  exact isSnake.isClean.cleaned_append_underscore

end IsSnake

/-! ## The raw prefix -/

/-- The sign of a raw prefix is in no display name. -/
theorem isPrefixOf_rawPrefix_of_not_mem
    {text : List Char}
    (free : '#' ∉ text) :
    rawPrefix.isPrefixOf text = false := by
  rw [Bool.eq_false_iff]
  intro raw
  exact free ((List.isPrefixOf_iff_prefix.mp raw).subset (by decide))

theorem unraw_of_not_mem
    {name : String}
    (free : '#' ∉ name.toList) :
    unraw name = name := by
  rw [unraw, if_neg (Bool.eq_false_iff.mp (isPrefixOf_rawPrefix_of_not_mem free))]

theorem unraw_raw (name : String) : unraw ("r#" ++ name) = name := by
  have signs : ("r#" ++ name).toList = rawPrefix ++ name.toList := String.toList_append
  rw [unraw, signs, if_pos (List.isPrefixOf_iff_prefix.mpr (List.prefix_append ..))]
  exact String.ofList_toList

theorem hash_not_mem
    {text : List Char}
    (characters : ∀ character ∈ text,
      character.isLower = true ∨ character.isDigit = true ∨ character = '_') :
    '#' ∉ text :=
  fun member => absurd (characters '#' member) (by decide)

/-- Without a raw prefix, the identifier of a field is the display name, or has one underscore
more. -/
theorem unraw_escapeField_cases
    {display : String}
    (isSnake : IsSnake display) :
    unraw (escapeField display) = display ∨
      unraw (escapeField display) = "_" ++ display ∨
      unraw (escapeField display) = display ++ "_" := by
  have free := hash_not_mem isSnake.characters
  unfold escapeField
  split
  next empty =>
    rw [empty]
    exact .inr (.inl (by decide))
  split
  next => exact .inr (.inr (unraw_of_not_mem (by simpa using free)))
  split
  next => exact .inl (unraw_raw display)
  split
  next => exact .inr (.inl (unraw_of_not_mem (by simpa using free)))
  next => exact .inl (unraw_of_not_mem free)

/-! ## Display names behind identifiers -/

/-- The display name can be read off the identifier of a field. -/
theorem cleaned_unraw_escapeField
    {display : String}
    (isSnake : IsSnake display) :
    cleaned (unraw (escapeField display)).toList = display.toList := by
  rcases unraw_escapeField_cases isSnake with same | same | same
  · rw [same, isSnake.cleaned_eq]
  · rw [same, isSnake.cleaned_underscore_append]
  · rw [same, isSnake.cleaned_append_underscore]

/-- The display name can be read off the name of a module, unless it is empty. -/
theorem cleaned_escapeModule
    {display : String}
    (isSnake : IsSnake display)
    (visible : display ≠ "") :
    cleaned (escapeModule display).toList = display.toList := by
  rw [escapeModule, if_neg visible]
  split
  next => exact isSnake.cleaned_append_underscore
  split
  next => exact isSnake.cleaned_underscore_append
  next => exact isSnake.cleaned_eq

end Name
end SchemaCompiler
