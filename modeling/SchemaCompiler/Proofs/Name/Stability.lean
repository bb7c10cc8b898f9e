import SchemaCompiler.Proofs.Name.Escaping
import SchemaCompiler.Schema.Node

/-!
# Stability of names

A name keeps all its letters and digits on the way into its words, and a display name or a module
name that is taken for a name again has the words that it was made of. So whatever spelling a name
comes in, its words alone decide how it is displayed.
-/

namespace SchemaCompiler
namespace Name

theorem ascii_of_isWordCharacter
    {character : Char}
    (kept : isWordCharacter character = true) :
    character.val < 128 := by
  rw [isWordCharacter, Bool.or_eq_true, isAlphanum_iff, isUpper_iff, isLower_iff, isDigit_iff,
    decide_eq_true_iff] at kept
  rcases kept with inRange | rfl
  · simp only [UInt32.le_iff_toNat_le, UInt32.lt_iff_toNat_lt] at inRange ⊢
    simp at inRange ⊢
    omega
  · decide

theorem isWordCharacter_of_small
    {character : Char}
    (sign : character.isLower = true ∨ character.isDigit = true ∨ character = '_') :
    isWordCharacter character = true := by
  rcases sign with letter | digit | rfl
  · exact isWordCharacter_of_isSmall (isSmall_iff.mpr (.inl letter))
  · exact isWordCharacter_of_isSmall (isSmall_iff.mpr (.inr digit))
  · rfl

section Laws

variable [lettering : Lettering]

namespace Lettering.KeepsAscii

/-- A name in word characters is cleaned as it is written. -/
theorem sanitize_eq
    (keeps : lettering.KeepsAscii)
    {name : String}
    (characters : ∀ character ∈ name.toList, isWordCharacter character = true) :
    sanitize name = cleaned name.toList := by
  rw [sanitize]
  split
  next empty =>
    rw [empty]
    rfl
  next =>
    rw [keeps _ fun character member => ascii_of_isWordCharacter (characters character member)]

/-- A text that is cleaned to joined words has these words. -/
theorem words_eq
    (keeps : lettering.KeepsAscii)
    {name : String}
    {parts : List (List Char)}
    (characters : ∀ character ∈ name.toList, isWordCharacter character = true)
    (each : ∀ word ∈ parts, IsWord word)
    (same : cleaned name.toList = ['_'].intercalate parts) :
    words name = parts := by
  rw [words, keeps.sanitize_eq characters, same, splitWords_intercalate each]

/-- The display name in snake case has the words of the name. -/
theorem words_snake
    (keeps : lettering.KeepsAscii)
    (name : String) :
    words (snake name) = words name := by
  have isSnake := isSnake_snake name
  refine keeps.words_eq isSnake.isClean.characters (fun _ => isWord_of_mem_words) ?_
  rw [isSnake.cleaned_eq, snake, String.toList_ofList]

/-- So has the module name, unless the name has no words. -/
theorem words_moduleName
    (keeps : lettering.KeepsAscii)
    {name : String}
    (visible : snake name ≠ "") :
    words (moduleName name) = words name := by
  have isModule := isModuleName_moduleName name
  refine keeps.words_eq (fun character member =>
    isWordCharacter_of_small (isModule.characters character member))
    (fun _ => isWord_of_mem_words) ?_
  rw [moduleName, cleaned_escapeModule (isSnake_snake name) visible, snake, String.toList_ofList]

end Lettering.KeepsAscii

/-- Names with the same words are displayed alike. -/
theorem snake_congr
    {left right : String}
    (same : words left = words right) :
    snake left = snake right := by
  rw [snake, same, snake]

theorem pascal_congr
    {left right : String}
    (same : words left = words right) :
    pascal left = pascal right := by
  rw [pascal, same, pascal]

/-- The display name in snake case shows the words. -/
theorem words_eq_iff_snake_eq
    {left right : String} :
    words left = words right ↔ snake left = snake right := by
  refine ⟨snake_congr, fun same => ?_⟩
  have joined := congrArg (splitWords ∘ String.toList) same
  simpa only [Function.comp_apply, snake, String.toList_ofList,
    splitWords_intercalate fun _ => isWord_of_mem_words] using joined

/-- The name of a module without words is its own module name. -/
theorem Lettering.KeepsAscii.moduleName_unnamed
    (keeps : lettering.KeepsAscii) :
    moduleName "unnamed" = "unnamed" := by
  have each : ∀ word ∈ ["unnamed".toList], IsWord word :=
    List.forall_mem_singleton.mpr ⟨by decide, List.all_eq_true.mp (by decide)⟩
  have words : words "unnamed" = ["unnamed".toList] :=
    keeps.words_eq (List.all_eq_true.mp (by decide)) each (by decide)
  rw [moduleName, snake, words]
  decide

/-- Module names are their own module names. -/
theorem Lettering.KeepsAscii.moduleName_moduleName
    (keeps : lettering.KeepsAscii)
    (name : String) :
    moduleName (moduleName name) = moduleName name := by
  by_cases visible : snake name = ""
  · have unnamed : moduleName name = "unnamed" := by
      rw [moduleName, visible]
      rfl
    rw [unnamed, keeps.moduleName_unnamed]
  · rw [moduleName, snake_congr (keeps.words_moduleName visible), ← moduleName]

end Laws

/-! ## Names in any spelling -/

/-- Words are the clean text in small letters, cut at its underscores and elsewhere. Display names
and module names are stable, and names with the same words are displayed alike, which their names
in snake case show. -/
structure SplitsStably (lettering : Lettering) : Prop where
  isWord : ∀ name, ∀ word ∈ words name,
    word ≠ [] ∧ ∀ character ∈ word, character.isLower = true ∨ character.isDigit = true
  lossless : ∀ name,
    (words name).flatten = ((sanitize name).filter (· ≠ '_')).map Char.toLower
  snake_snake : ∀ name, snake (snake name) = snake name
  pascal_snake : ∀ name, pascal (snake name) = pascal name
  moduleName_moduleName : ∀ name, moduleName (moduleName name) = moduleName name
  alike : ∀ left right, words left = words right →
    snake left = snake right ∧ pascal left = pascal right
  shown : ∀ left right, snake left = snake right → words left = words right

/-- Names split without loss and stably, whatever spelling they get, if only ASCII text is spelled
as it stands. -/
theorem splits_stably
    [lettering : Lettering]
    (keeps : lettering.KeepsAscii) :
    SplitsStably lettering where
  isWord := fun _ _ member =>
    (isWord_of_mem_words member).imp_right fun small character inWord =>
      isSmall_iff.mp (small character inWord)
  lossless := fun _ => flatten_splitWords _
  snake_snake := fun name => snake_congr (keeps.words_snake name)
  pascal_snake := fun name => pascal_congr (keeps.words_snake name)
  moduleName_moduleName := keeps.moduleName_moduleName
  alike := fun _ _ same => ⟨snake_congr same, pascal_congr same⟩
  shown := fun _ _ => words_eq_iff_snake_eq.mpr

/-- A name in two spellings. -/
theorem splits_stably_vlan :
    standard.KeepsAscii ∧
      words "VLAN-IDs2Go" = ["vlan".toList, "ids2".toList, "go".toList] ∧
        words "vlan_ids2  go" = words "VLAN-IDs2Go" ∧
          pascal (snake "VLAN-IDs2Go") = pascal "vlan_ids2  go" := by
  have same : words "vlan_ids2  go" = words "VLAN-IDs2Go" := by decide +kernel
  have stable := splits_stably Lettering.keepsAscii_standard
  refine ⟨Lettering.keepsAscii_standard, by decide +kernel, same, ?_⟩
  rw [stable.pascal_snake]
  exact (stable.alike _ _ same).2.symm

end Name

/-- Nodes with one display name in snake case have one in Pascal case. -/
theorem Schema.Node.pascalName_eq_of_snakeName_eq
    [Name.Lettering]
    {left right : Node}
    (same : left.snakeName = right.snakeName) :
    left.pascalName = right.pascalName :=
  Name.pascal_congr (Name.words_eq_iff_snake_eq.mpr same)

end SchemaCompiler
