import SchemaCompiler.Client.Definition
import SchemaCompiler.Proofs.Name.Escaping

/-!
# Valid identifiers

Names of fields, methods, modules and types that are made from display names are identifiers and no
keywords, whatever text the names are made from. A declared name that is kept as it is written is
an identifier if there are no blanks and no comments in it; those around an identifier are kept
with it.
-/

namespace SchemaCompiler
namespace Name

open SchemaCompiler.Client (KeyMethod)
open SchemaCompiler.Key (Form StorageKey)

/-- Keywords of the language. -/
def reservedWords : List String := keywords ++ ["self", "Self"]

/-! ## Small names -/

/-- The name is in `[a-z_][a-z0-9_]*`, more than an underscore, and no keyword. -/
structure IsSnakeIdentifier (name : String) : Prop where
  head : ∃ first ∈ name.toList.head?, first.isLower = true ∨ first = '_'
  characters : ∀ character ∈ name.toList,
    character.isLower = true ∨ character.isDigit = true ∨ character = '_'
  visible : name ≠ "_"
  noKeyword : name ∉ reservedWords

/-- The name of a field is an underscore, a small name, or the raw form of a keyword that has
one. -/
def IsFieldIdentifier (name : String) : Prop :=
  name = "_" ∨ IsSnakeIdentifier name ∨
    ∃ keyword ∈ reservedWords, keyword ∉ ["self", "Self", "super", "crate"] ∧
      name = "r#" ++ keyword

/-- Keywords are known to modules or to declared names. -/
theorem reservedWords_subset :
    ∀ keyword ∈ reservedWords, keyword ∈ keywords ∨ keyword ∈ declaredKeywords := by
  decide

/-- A module name that is more than an underscore can stand anywhere in code. -/
theorem IsModuleName.isSnakeIdentifier
    {name : String}
    (isName : IsModuleName name)
    (visible : name ≠ "_") :
    IsSnakeIdentifier name := by
  refine ⟨?_, isName.characters, visible, fun isKeyword => ?_⟩
  · have noDigit := isName.noDigit
    have characters := isName.characters
    rw [startsWithDigit] at noDigit
    cases letters : name.toList with
    | nil => exact absurd (String.toList_eq_nil_iff.mp letters) isName.nonempty
    | cons first rest =>
        rw [letters] at noDigit characters
        refine ⟨first, rfl, (characters first List.mem_cons_self).imp_right fun other => ?_⟩
        exact other.resolve_left (Bool.eq_false_iff.mp noDigit)
  · rcases reservedWords_subset name isKeyword with known | declared
    · exact isName.noKeyword.1 known
    · exact isName.noKeyword.2 declared

/-- No display name is escaped to a lone underscore as a module. -/
theorem escapeModule_ne_underscore
    {display : String}
    (isSnake : IsSnake display) :
    escapeModule display ≠ "_" := by
  intro same
  by_cases visible : display = ""
  · rw [visible] at same
    exact absurd same (by decide)
  · have read := cleaned_escapeModule isSnake visible
    rw [same] at read
    exact visible (String.toList_eq_nil_iff.mp read.symm)

theorem isSnakeIdentifier_escapeModule
    {display : String}
    (isSnake : IsSnake display) :
    IsSnakeIdentifier (escapeModule display) :=
  (isModuleName_escapeModule isSnake.characters).isSnakeIdentifier
    (escapeModule_ne_underscore isSnake)

/-- Fields are escaped like modules, apart from empty names and from keywords with a raw form. -/
theorem escapeField_cases (display : String) :
    escapeField display = "_" ∨
      (display ∈ keywords ∧ display ∉ pathKeywords) ∧ escapeField display = "r#" ++ display ∨
        escapeField display = escapeModule display := by
  have path : ∀ keyword ∈ pathKeywords, keyword = "self" ∨ keyword ∈ keywords := by decide
  unfold escapeField
  split
  next => exact .inl rfl
  next visible =>
    split
    next isPath =>
      exact .inr (.inr (by rw [escapeModule, if_neg visible, if_pos (path display isPath)]))
    next noPath =>
      split
      next isKeyword => exact .inr (.inl ⟨⟨isKeyword, noPath⟩, rfl⟩)
      next noKeyword =>
        have free : ¬(display = "self" ∨ display ∈ keywords) := by
          rintro (rfl | isKeyword)
          · exact noPath (by decide)
          · exact noKeyword isKeyword
        exact .inr (.inr (by rw [escapeModule, if_neg visible, if_neg free]))

theorem isFieldIdentifier_escapeField
    {display : String}
    (isSnake : IsSnake display) :
    IsFieldIdentifier (escapeField display) := by
  rcases escapeField_cases display with lone | ⟨⟨isKeyword, noPath⟩, raw⟩ | same
  · exact .inl lone
  · have own : ∀ keyword ∈ keywords, keyword ∉ pathKeywords →
        keyword ∉ ["self", "Self", "super", "crate"] := by
      decide
    exact .inr (.inr ⟨display, List.mem_append_left _ isKeyword, own display isKeyword noPath, raw⟩)
  · rw [same]
    exact .inr (.inl (isSnakeIdentifier_escapeModule isSnake))

/-! ## Key methods -/

/-- What a key method has behind the name of its field. -/
def keyMethodEnding (form : Form) : String := "_" ++ form.text ++ "_key"

@[simp] theorem name_ofKey (field : String) (form : Form) (key : StorageKey) :
    (KeyMethod.ofKey field form key).name = withSuffix field (keyMethodEnding form) := rfl

theorem keyMethodEnding_free (form : Form) :
    ∀ keyword ∈ keywords ++ declaredKeywords,
      ¬(keyMethodEnding form).toList <:+ keyword.toList := by
  cases form <;> decide

theorem characters_keyMethodEnding (form : Form) :
    ∀ character ∈ (keyMethodEnding form).toList,
      character.isLower = true ∨ character.isDigit = true ∨ character = '_' :=
  characters_of_all (by cases form <;> decide)

theorem append_keyMethodEnding_ne_underscore (lead : String) (form : Form) :
    lead ++ keyMethodEnding form ≠ "_" := by
  intro same
  have letter : 'k' ∈ (lead ++ keyMethodEnding form).toList := by
    rw [String.toList_append]
    exact List.mem_append_right _ (by cases form <;> decide)
  rw [same] at letter
  exact absurd letter (by decide)

theorem keywords_spec :
    ∀ keyword ∈ keywords, keyword ≠ "" ∧ startsWithDigit keyword = false := by
  decide

/-- With the ending of a key method, whatever a field is called becomes a small name: a lone
underscore and a keyword without its raw prefix do, too. -/
theorem isSnakeIdentifier_keyMethod
    {display : String}
    (isSnake : IsSnake display)
    (form : Form)
    (key : StorageKey) :
    IsSnakeIdentifier (KeyMethod.ofKey (escapeField display) form key).name := by
  have free := keyMethodEnding_free form
  have characters := characters_keyMethodEnding form
  rw [name_ofKey, withSuffix]
  refine IsModuleName.isSnakeIdentifier ?_ (append_keyMethodEnding_ne_underscore _ form)
  rcases escapeField_cases display with lone | ⟨⟨isKeyword, -⟩, raw⟩ | same
  · rw [lone]
    exact isModuleName_append (by decide) (characters_of_all (by decide)) (by decide) free
      characters
  · obtain ⟨nonempty, noDigit⟩ := keywords_spec display isKeyword
    rw [raw, unraw_raw]
    exact isModuleName_append nonempty isSnake.characters noDigit free characters
  · have isName := isModuleName_escapeModule isSnake.characters
    rw [same, unraw_of_not_mem (hash_not_mem isName.characters)]
    exact isName.append free characters

/-! ## Names of types -/

/-- The name consists of letters and digits of ASCII, begins with a letter, and is neither a
keyword nor in scope everywhere. -/
structure IsTypeIdentifier (name : String) : Prop where
  head : ∃ first ∈ name.toList.head?, first.isAlpha = true
  characters : ∀ character ∈ name.toList, character.isAlphanum = true
  noKeyword : name ∉ reservedWords
  free : name ∉ reservedTypes

/-- What becomes a small letter or a digit was a letter or a digit. -/
theorem isAlphanum_of_isSmall_toLower
    {character : Char}
    (small : isSmall character.toLower = true) :
    character.isAlphanum = true := by
  rw [isAlphanum_iff]
  cases capital : character.isUpper with
  | true => exact .inl (.inl rfl)
  | false =>
      rw [toLower_of_isUpper_eq_false capital, isSmall_iff] at small
      exact small.imp_left .inr

/-- Display names in Pascal case consist of letters and digits. -/
theorem Lettering.Capitalizes.isAlphanum_pascal
    [lettering : Lettering]
    (capitalizes : lettering.Capitalizes)
    {name : String}
    {character : Char}
    (member : character ∈ (pascal name).toList) :
    character.isAlphanum = true := by
  rw [pascal, String.toList_ofList] at member
  obtain ⟨word, isWord, inForm⟩ := List.mem_flatMap.mp member
  have isWord := isWord_of_mem_words isWord
  have inWord := List.mem_map_of_mem (f := Char.toLower) inForm
  rw [capitalizes.letters word isWord] at inWord
  exact isAlphanum_of_isSmall_toLower (isWord.2 _ inWord)

theorem forall_mem_append_iff
    {holds : Char → Prop}
    {left right : String} :
    (∀ character ∈ (left ++ right).toList, holds character) ↔
      (∀ character ∈ left.toList, holds character) ∧
        ∀ character ∈ right.toList, holds character := by
  rw [String.toList_append]
  exact List.forall_mem_append

/-- Letters are all that is put around a display name. -/
theorem isAlphanum_escapeType
    {display : String}
    (characters : ∀ character ∈ display.toList, character.isAlphanum = true) :
    ∀ character ∈ (escapeType display).toList, character.isAlphanum = true := by
  have unnamed : ∀ character ∈ "Unnamed".toList, character.isAlphanum = true :=
    List.all_eq_true.mp (by decide)
  have ending : ∀ character ∈ "Schema".toList, character.isAlphanum = true :=
    List.all_eq_true.mp (by decide)
  have letter : ∀ character ∈ "T".toList, character.isAlphanum = true :=
    List.all_eq_true.mp (by decide)
  by_cases visible : display = ""
  · rw [escapeType, if_pos visible]
    exact unnamed
  · rw [escapeType, if_neg visible]
    have free : ∀ character ∈
        (if display ∈ reservedTypes then display ++ "Schema" else display).toList,
        character.isAlphanum = true := by
      split
      next => exact forall_mem_append_iff.mpr ⟨characters, ending⟩
      next => exact characters
    dsimp only
    generalize (if display ∈ reservedTypes then display ++ "Schema" else display) = name at free ⊢
    split
    next => exact forall_mem_append_iff.mpr ⟨letter, free⟩
    next => exact free

/-- Keywords begin with a capital only if they are in scope everywhere. -/
theorem reservedWords_small :
    ∀ keyword ∈ reservedWords, beginsWithCapital keyword = true → keyword ∈ reservedTypes := by
  decide

theorem Lettering.Capitalizes.isTypeIdentifier_typeName
    [lettering : Lettering]
    (capitalizes : lettering.Capitalizes)
    (name : String) :
    IsTypeIdentifier (typeName name) := by
  have spec := escapeType_spec (capitalizes.head_pascal name)
  rw [← typeName] at spec
  obtain ⟨capital, free⟩ := spec
  refine ⟨?_, isAlphanum_escapeType fun _ => capitalizes.isAlphanum_pascal,
    fun isKeyword => free (reservedWords_small _ isKeyword capital), free⟩
  unfold beginsWithCapital at capital
  cases head : (typeName name).toList.head? with
  | none =>
      rw [head] at capital
      cases capital
  | some first =>
      rw [head] at capital
      exact ⟨first, rfl, Bool.or_eq_true_iff.mpr (.inl capital)⟩

/-! ## Declared names -/

/-- The sign is a blank or may begin a comment. -/
def isAside (character : Char) : Bool :=
  isBlank character || character = '/' || character = '\uFEFF'

/-- The name is an identifier and none of the words that a declared name cannot be, with nothing
around it. -/
structure IsIdentifier (name : String) : Prop where
  plain : isPlainIdentifier name.toList = true
  alone : ∀ character ∈ name.toList, isAside character = false

/-- Among the keywords, `gen` alone is an identifier here: declared names are tested for keywords
that are older. -/
theorem IsIdentifier.eq_gen_of_mem_reservedWords
    {name : String}
    (isIdentifier : IsIdentifier name)
    (isKeyword : name ∈ reservedWords) :
    name = "gen" := by
  have known : ∀ keyword ∈ reservedWords, keyword = "gen" ∨ keyword ∈ declaredKeywords := by
    decide
  refine (known name isKeyword).resolve_right fun declared => ?_
  have plain := isIdentifier.plain
  unfold isPlainIdentifier at plain
  split at plain
  next => cases plain
  next =>
    rw [String.ofList_toList] at plain
    simp [declared] at plain

example [Lettering] : declaredName "gen" = "gen" := if_pos (by decide +kernel)

/-- The declared name is the name itself, an identifier that is neither raw nor in scope
everywhere, or the name of a type. -/
def IsDeclaredWell [Lettering] (name : String) : Prop :=
  (declaredName name = name ∧ IsIdentifier name ∧ ¬rawPrefix <+: name.toList ∧
    name ∉ reservedTypes) ∨ declaredName name = typeName name

theorem isBlank_eq_false_of_isAlphanum
    {character : Char}
    (alphanumeric : character.isAlphanum = true) :
    isBlank character = false := by
  rw [isAlphanum_iff, isUpper_iff, isLower_iff, isDigit_iff] at alphanumeric
  simp only [UInt32.le_iff_toNat_le] at alphanumeric
  simp at alphanumeric
  simp only [isBlank, Bool.or_eq_false_iff, Bool.and_eq_false_iff, decide_eq_false_iff_not,
    List.mem_cons, List.not_mem_nil, or_false]
  omega

theorem isAside_eq_false_of_isAlphanum
    {character : Char}
    (alphanumeric : character.isAlphanum = true) :
    isAside character = false := by
  rw [isAside, isBlank_eq_false_of_isAlphanum alphanumeric, Bool.false_or, Bool.or_eq_false_iff]
  refine ⟨decide_eq_false ?_, decide_eq_false ?_⟩ <;>
  · rintro rfl
    cases alphanumeric

/-- There is nothing to skip in a text without blanks and comments. -/
theorem skipBlanks_eq_self
    {text : List Char}
    (alone : ∀ character ∈ text, isAside character = false)
    (limit : Nat) :
    skipBlanks limit text = text := by
  cases limit with
  | zero => rfl
  | succ limit =>
      cases text with
      | nil => rfl
      | cons first rest =>
          have own := alone first List.mem_cons_self
          simp only [isAside, Bool.or_eq_false_iff, decide_eq_false_iff_not] at own
          obtain ⟨⟨noBlank, noSlash⟩, -⟩ := own
          have noComment : afterComment? (first :: rest) = none := by
            rw [afterComment?]
            · exact ite_self none
            · exact fun _ heads => noSlash (List.cons.inj heads).1
            · exact fun _ heads => noSlash (List.cons.inj heads).1
          simp only [skipBlanks, noComment, noBlank, Bool.false_eq_true, if_false]

/-- A name that can be declared is an identifier, if it is not raw and there are no blanks and no
comments in it. -/
theorem isPlainIdentifier_of_isDeclarable
    {name : String}
    (declarable : isDeclarable name = true)
    (noRaw : rawPrefix.isPrefixOf name.toList = false)
    (alone : ∀ character ∈ name.toList, isAside character = false) :
    isPlainIdentifier name.toList = true := by
  have rest : ∀ count, ∀ character ∈ name.toList.drop count, isAside character = false :=
    fun count character member => alone character (List.mem_of_mem_drop member)
  unfold isDeclarable at declarable
  generalize name.toList = text at declarable noRaw alone rest ⊢
  split at declarable
  next mark =>
    exact absurd (alone '\uFEFF' List.mem_cons_self) (by decide)
  next =>
    simp only [skipBlanks_eq_self alone, noRaw, Bool.false_eq_true, if_false,
      skipBlanks_eq_self (rest _), Bool.and_eq_true, List.isEmpty_iff] at declarable
    obtain ⟨⟨-, plain⟩, finished⟩ := declarable
    have whole : text.takeWhile isIdentifierContinuation = text :=
      (List.takeWhile_prefix _).eq_of_length_le (List.drop_eq_nil_iff.mp finished)
    rwa [whole] at plain

theorem isKept_iff {name : String} :
    isKept name = true ↔
      ¬rawPrefix <+: name.toList ∧ name ∉ reservedTypes ∧ isDeclarable name = true := by
  simp [isKept, List.isPrefixOf_iff_prefix, ← Bool.not_eq_true, and_assoc]

/-- Declared names are what they should be except where blanks or comments are kept. -/
theorem isDeclaredWell_iff
    [Lettering]
    {name : String}
    (isType : IsTypeIdentifier (typeName name)) :
    IsDeclaredWell name ↔
      (isKept name = true → ∀ character ∈ name.toList, isAside character = false) := by
  unfold IsDeclaredWell
  constructor
  · rintro (⟨-, isIdentifier, -⟩ | same) kept
    · exact isIdentifier.alone
    · rw [declaredName, if_pos kept] at same
      intro character member
      exact isAside_eq_false_of_isAlphanum (isType.characters character (same ▸ member))
  · intro alone
    by_cases kept : isKept name = true
    · obtain ⟨noRaw, free, declarable⟩ := isKept_iff.mp kept
      have noPrefix := Bool.eq_false_iff.mpr (mt List.isPrefixOf_iff_prefix.mp noRaw)
      exact .inl ⟨if_pos kept, ⟨isPlainIdentifier_of_isDeclarable declarable noPrefix (alone kept),
        alone kept⟩, noRaw, free⟩
    · exact .inr (if_neg kept)

/-! ## All names -/

/-- Identifiers made from the name are valid. Only the declared name is none when it is kept with
blanks or comments. -/
structure MakesIdentifiers [Lettering] (name : String) : Prop where
  field : IsFieldIdentifier (fieldName name)
  keyMethod : ∀ form key, IsSnakeIdentifier (KeyMethod.ofKey (fieldName name) form key).name
  module : IsSnakeIdentifier (moduleName name) ∧ ¬rawPrefix <+: (moduleName name).toList
  type : IsTypeIdentifier (typeName name)
  declared : IsDeclaredWell name ↔
    (isKept name = true → ∀ character ∈ name.toList, isAside character = false)

/-- Whatever spelling a name gets and however its words become capitalized, the identifiers made of
it are valid, and the declared name is what it should be exactly if no blanks or comments are kept
with it. -/
theorem makes_identifiers_iff
    [lettering : Lettering]
    (capitalizes : lettering.Capitalizes)
    (name : String) :
    MakesIdentifiers name where
  field := isFieldIdentifier_escapeField (isSnake_snake name)
  keyMethod := isSnakeIdentifier_keyMethod (isSnake_snake name)
  module := by
    have isName := isSnakeIdentifier_escapeModule (isSnake_snake name)
    refine ⟨isName, fun raw => ?_⟩
    exact hash_not_mem isName.characters (raw.subset (by decide))
  type := capitalizes.isTypeIdentifier_typeName name
  declared := isDeclaredWell_iff (capitalizes.isTypeIdentifier_typeName name)

/-- Any text at all may be what a name is spelled as. -/
theorem makes_identifiers_digits :
    let lettering : Lettering := ⟨fun _ => "802.1x".toList, capitalize⟩
    lettering.Capitalizes ∧ @typeName lettering "*" = "T8021x" ∧ IsTypeIdentifier "T8021x" ∧
      IsFieldIdentifier (@fieldName standard "*") := by
  have ofStandard := (makes_identifiers_iff Lettering.capitalizes_standard "*").field
  intro lettering
  have capitalizes : lettering.Capitalizes :=
    ⟨Lettering.capitalizes_standard.letters, Lettering.capitalizes_standard.head⟩
  have spelled : @typeName lettering "*" = "T8021x" := by decide
  exact ⟨capitalizes, spelled, spelled ▸ (makes_identifiers_iff capitalizes "*").type,
    ofStandard⟩

/-- A blank in front of a declared name is kept. -/
theorem not_isDeclaredWell_blank : ¬IsDeclaredWell " Foo" := by
  have kept : isKept " Foo" = true := by decide +kernel
  have declared : declaredName " Foo" = " Foo" := if_pos kept
  rintro (⟨-, isIdentifier, -⟩ | same)
  · exact absurd (isIdentifier.alone ' ' (by decide)) (by decide)
  · have isType := Lettering.capitalizes_standard.isTypeIdentifier_typeName " Foo"
    rw [← same, declared] at isType
    exact absurd (isType.characters ' ' (by decide)) (by decide)

end Name
end SchemaCompiler
