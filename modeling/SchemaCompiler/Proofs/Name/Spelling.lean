import SchemaCompiler.Name.Identifier
import SchemaCompiler.Proofs.Name.Lettering

/-!
# Spelling of identifiers

Whatever signs a name has, the words of its display name consist of small letters and digits. So
module names, joined from words with underscores, can stand in paths and in code, and type names
begin with a capital.
-/

namespace SchemaCompiler
namespace Name

/-! ## Module names -/

/-- The name can stand in a path and as a module in code: it consists of small letters, digits
and underscores, does not begin with a digit and is no keyword. -/
structure IsModuleName (name : String) : Prop where
  nonempty : name ≠ ""
  characters : ∀ character ∈ name.toList,
    character.isLower = true ∨ character.isDigit = true ∨ character = '_'
  noDigit : startsWithDigit name = false
  noKeyword : name ∉ keywords ∧ name ∉ declaredKeywords

/-- The signs of a name are checked one by one. -/
theorem characters_of_all
    {name : String}
    (checked : (name.toList.all fun character =>
      character.isLower || character.isDigit || character == '_') = true) :
    ∀ character ∈ name.toList,
      character.isLower = true ∨ character.isDigit = true ∨ character = '_' := by
  intro character member
  have sign := List.all_eq_true.mp checked character member
  simpa only [Bool.or_eq_true, beq_iff_eq, or_assoc] using sign

/-- Words joined by underscores consist of small letters, digits and underscores. -/
theorem characters_intercalate
    {words : List (List Char)}
    (each : ∀ word ∈ words, IsWord word)
    {character : Char}
    (member : character ∈ ['_'].intercalate words) :
    character.isLower = true ∨ character.isDigit = true ∨ character = '_' := by
  rcases mem_intercalate member with rfl | ⟨word, isWord, inWord⟩
  · exact .inr (.inr rfl)
  · exact (isSmall_iff.mp ((each word isWord).2 character inWord)).imp_right .inl

/-- Display names in snake case consist of small letters, digits and underscores. -/
theorem characters_snake
    [Lettering]
    {name : String}
    {character : Char}
    (member : character ∈ (snake name).toList) :
    character.isLower = true ∨ character.isDigit = true ∨ character = '_' := by
  rw [snake, String.toList_ofList] at member
  exact characters_intercalate (fun _ => isWord_of_mem_words) member

/-- A keyword with an underscore behind it is none. -/
theorem escaped_keywords :
    ∀ keyword ∈ "self" :: keywords, startsWithDigit (keyword ++ "_") = false ∧
      keyword ++ "_" ∉ keywords ∧ keyword ++ "_" ∉ declaredKeywords := by
  decide

theorem head?_keywords :
    ∀ keyword ∈ keywords ++ declaredKeywords, keyword.toList.head? ≠ some '_' := by
  decide

/-- Declared class names have the keywords of modules, and two more. -/
theorem declaredKeywords_subset :
    ∀ keyword ∈ declaredKeywords, keyword ∈ keywords ∨ keyword = "self" ∨ keyword = "Self" := by
  decide

/-- Whatever a display name is, the module name made of it is one. -/
theorem isModuleName_escapeModule
    {display : String}
    (characters : ∀ character ∈ display.toList,
      character.isLower = true ∨ character.isDigit = true ∨ character = '_') :
    IsModuleName (escapeModule display) := by
  have underscore : ∀ character ∈ "_".toList,
      character.isLower = true ∨ character.isDigit = true ∨ character = '_' :=
    characters_of_all (by decide)
  unfold escapeModule
  split
  next =>
    exact ⟨by decide, characters_of_all (by decide), by decide, by decide,
      by decide⟩
  split
  next isKeyword =>
    obtain ⟨noDigit, noKeyword⟩ := escaped_keywords display (List.mem_cons.mpr isKeyword)
    refine ⟨by simp, ?_, noDigit, noKeyword⟩
    rw [String.toList_append]
    exact List.forall_mem_append.mpr ⟨characters, underscore⟩
  next visible free =>
    split
    next =>
      have noKeyword : "_" ++ display ∉ keywords ++ declaredKeywords := fun isKeyword =>
        head?_keywords _ isKeyword (by rw [String.toList_append]; rfl)
      refine ⟨by simp, ?_, by rw [startsWithDigit, String.toList_append]; rfl,
        fun isKeyword => noKeyword (List.mem_append_left _ isKeyword),
        fun isKeyword => noKeyword (List.mem_append_right _ isKeyword)⟩
      rw [String.toList_append]
      exact List.forall_mem_append.mpr ⟨underscore, characters⟩
    next noDigit =>
      refine ⟨visible, characters, Bool.eq_false_iff.mpr noDigit,
        fun isKeyword => free (.inr isKeyword), fun isKeyword => ?_⟩
      rcases declaredKeywords_subset display isKeyword with other | same | rfl
      · exact free (.inr other)
      · exact free (.inl same)
      · exact absurd (characters 'S' (by decide)) (by decide)

theorem isModuleName_moduleName [Lettering] (name : String) : IsModuleName (moduleName name) :=
  isModuleName_escapeModule fun _ => characters_snake

/-- The signs of a module name with an ending that no keyword has are a module name, even if they
are none without it. -/
theorem isModuleName_append
    {lead ending : String}
    (visible : lead ≠ "")
    (leadCharacters : ∀ character ∈ lead.toList,
      character.isLower = true ∨ character.isDigit = true ∨ character = '_')
    (noDigit : startsWithDigit lead = false)
    (free : ∀ keyword ∈ keywords ++ declaredKeywords, ¬ending.toList <:+ keyword.toList)
    (characters : ∀ character ∈ ending.toList,
      character.isLower = true ∨ character.isDigit = true ∨ character = '_') :
    IsModuleName (lead ++ ending) := by
  have noKeyword : lead ++ ending ∉ keywords ++ declaredKeywords := fun isKeyword => by
    refine free _ isKeyword ?_
    rw [String.toList_append]
    exact List.suffix_append _ _
  refine ⟨fun empty => visible (String.append_eq_empty_iff.mp empty).1, ?_, ?_,
    fun isKeyword => noKeyword (List.mem_append_left _ isKeyword),
    fun isKeyword => noKeyword (List.mem_append_right _ isKeyword)⟩
  · rw [String.toList_append]
    exact List.forall_mem_append.mpr ⟨leadCharacters, characters⟩
  · rw [startsWithDigit] at noDigit ⊢
    rw [String.toList_append]
    cases letters : lead.toList with
    | nil => exact absurd (String.toList_eq_nil_iff.mp letters) visible
    | cons first rest =>
        rw [letters] at noDigit
        exact noDigit

/-- A module name with an ending that no keyword has is a module name. -/
theorem IsModuleName.append
    {lead ending : String}
    (isName : IsModuleName lead)
    (free : ∀ keyword ∈ keywords ++ declaredKeywords, ¬ending.toList <:+ keyword.toList)
    (characters : ∀ character ∈ ending.toList,
      character.isLower = true ∨ character.isDigit = true ∨ character = '_') :
    IsModuleName (lead ++ ending) :=
  isModuleName_append isName.nonempty isName.characters isName.noDigit free characters

/-! ## Type names -/

/-- The text begins with a capital of ASCII. -/
def beginsWithCapital (text : String) : Bool := text.toList.head?.any Char.isUpper

/-- A display name in Pascal case begins with a capital or a digit, if it is not empty. -/
theorem Lettering.Capitalizes.head_pascal
    [lettering : Lettering]
    (capitalizes : lettering.Capitalizes)
    (name : String) :
    pascal name = "" ∨ beginsWithCapital (pascal name) = true ∨
      startsWithDigit (pascal name) = true := by
  have each := fun word => @isWord_of_mem_words lettering name word
  unfold pascal beginsWithCapital startsWithDigit
  rw [String.toList_ofList]
  generalize words name = parts at each ⊢
  cases parts with
  | nil => exact .inl rfl
  | cons word rest =>
      have isWord := each word List.mem_cons_self
      cases word with
      | nil => exact absurd rfl isWord.1
      | cons first others =>
          have head := capitalizes.head first others isWord
          obtain ⟨tail, written⟩ := List.head?_eq_some_iff.mp head
          have sign := isSmall_iff.mp (isWord.2 first List.mem_cons_self)
          rw [List.flatMap_cons, written, List.cons_append, List.head?_cons, Option.any_some]
          refine .inr (sign.imp isUpper_toUpper fun digit => ?_)
          dsimp only
          rwa [toUpper_of_isLower_eq_false (isLower_eq_false_of_isDigit digit)]

theorem beginsWithCapital_append
    {text : String}
    (capital : beginsWithCapital text = true)
    (ending : String) :
    beginsWithCapital (text ++ ending) = true := by
  unfold beginsWithCapital at capital ⊢
  rw [String.toList_append]
  cases letters : text.toList with
  | nil => rw [letters] at capital; cases capital
  | cons first rest =>
      rw [letters] at capital
      exact capital

/-- Reserved names begin with a capital, and are not reserved with the ending that they take as
the names of types. -/
theorem escaped_reservedTypes :
    ∀ reserved ∈ reservedTypes, beginsWithCapital reserved = true ∧
      startsWithDigit (reserved ++ "Schema") = false ∧ reserved ++ "Schema" ∉ reservedTypes := by
  decide

/-- A name behind the letter that makes room for a digit is not reserved. -/
theorem digit_not_mem_reservedTypes (name : String) : "T" ++ name ∉ reservedTypes := by
  have heads : ∀ reserved ∈ reservedTypes, reserved.toList.head? ≠ some 'T' := by decide
  exact fun member => heads _ member (by rw [String.toList_append]; rfl)

/-- Whatever a display name is, the type name made of it begins with a capital and is not
reserved. -/
theorem escapeType_spec
    {display : String}
    (head : display = "" ∨ beginsWithCapital display = true ∨ startsWithDigit display = true) :
    beginsWithCapital (escapeType display) = true ∧ escapeType display ∉ reservedTypes := by
  unfold escapeType
  dsimp only
  split
  next => decide
  next visible =>
    have letter : ∀ text, beginsWithCapital ("T" ++ text) = true := fun text =>
      beginsWithCapital_append (by decide) text
    split
    next reserved =>
      obtain ⟨capital, noDigit, free⟩ := escaped_reservedTypes display reserved
      rw [if_neg (Bool.eq_false_iff.mp noDigit)]
      exact ⟨beginsWithCapital_append capital "Schema", free⟩
    next free =>
      split
      next digit => exact ⟨letter display, digit_not_mem_reservedTypes display⟩
      next noDigit => exact ⟨(head.resolve_left visible).resolve_right noDigit, free⟩

theorem Lettering.Capitalizes.typeName_spec
    [lettering : Lettering]
    (capitalizes : lettering.Capitalizes)
    (name : String) :
    beginsWithCapital (typeName name) = true ∧ typeName name ∉ reservedTypes :=
  escapeType_spec (capitalizes.head_pascal name)

/-- A declared name stays as it is written, or becomes a type name. -/
theorem declaredName_cases
    [Lettering]
    (name : String) :
    (declaredName name = name ∧ name ∉ reservedTypes ∧ isDeclarable name = true) ∨
      declaredName name = typeName name := by
  unfold declaredName
  split
  next kept =>
    simp only [isKept, Bool.and_eq_true, Bool.not_eq_true', List.contains_eq_mem,
      decide_eq_false_iff_not] at kept
    exact .inl ⟨rfl, kept.1.2, kept.2⟩
  next => exact .inr rfl

theorem ne_empty_of_beginsWithCapital
    {text : String}
    (capital : beginsWithCapital text = true) :
    text ≠ "" := by
  rintro rfl
  cases capital

/-- No declared name is empty or reserved. -/
theorem Lettering.Capitalizes.declaredName_spec
    [lettering : Lettering]
    (capitalizes : lettering.Capitalizes)
    (name : String) :
    declaredName name ≠ "" ∧ declaredName name ∉ reservedTypes := by
  rcases declaredName_cases name with ⟨same, free, declarable⟩ | same
  · rw [same]
    refine ⟨?_, free⟩
    rintro rfl
    exact absurd declarable (by decide)
  · rw [same]
    obtain ⟨capital, free⟩ := capitalizes.typeName_spec name
    exact ⟨ne_empty_of_beginsWithCapital capital, free⟩

/-- A name with a capital behind its first sign is none without one. -/
theorem append_ne_of_beginsWithCapital
    {lead ending text : String}
    (visible : lead ≠ "")
    (capital : beginsWithCapital ending = true)
    (plain : text.toList.tail.all fun character => !character.isUpper) :
    lead ++ ending ≠ text := by
  rintro rfl
  rw [String.toList_append] at plain
  unfold beginsWithCapital at capital
  cases letters : lead.toList with
  | nil => exact visible (String.toList_eq_nil_iff.mp letters)
  | cons first rest =>
      cases signs : ending.toList with
      | nil => rw [signs] at capital; cases capital
      | cons sign others =>
          rw [signs, List.head?_cons, Option.any_some] at capital
          rw [letters, signs, List.cons_append, List.tail_cons, List.all_append, List.all_cons,
            capital] at plain
          simp at plain

end Name
end SchemaCompiler
