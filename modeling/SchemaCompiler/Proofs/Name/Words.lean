import Mathlib.Data.List.SplitBy
import SchemaCompiler.Name.Words

/-!
# Words of a text

A text is cleaned of all but ASCII letters, digits and single underscores, and then split into
words. Splitting loses nothing but underscores and the case of letters, and words that are joined
by underscores are split into the same words again.
-/

namespace SchemaCompiler
namespace Name

/-! ## Cleaning -/

/-- Runs of underscores lose signs and gain none. -/
theorem collapse_sublist (text : List Char) : (collapse text).Sublist text := by
  induction text with
  | nil => exact .slnil
  | cons first rest hypothesis =>
      rw [collapse]
      split
      next tail same =>
        rw [same] at hypothesis
        split
        · exact hypothesis.cons first
        · exact hypothesis.cons_cons first
      next => exact hypothesis.cons_cons first

theorem trimUnderscores_subset (text : List Char) : trimUnderscores text ⊆ text := by
  intro character member
  have inner := (List.dropWhile_suffix _).subset (List.mem_reverse.mp member)
  exact (List.dropWhile_suffix _).subset (List.mem_reverse.mp inner)

/-- Only word characters are left of a text. -/
theorem isWordCharacter_of_mem_cleaned
    {text : List Char}
    {character : Char}
    (member : character ∈ cleaned text) :
    isWordCharacter character = true := by
  have spelled := (collapse_sublist _).subset (trimUnderscores_subset _ member)
  obtain ⟨sign, -, rfl⟩ := List.mem_map.mp spelled
  split
  next kept => exact kept
  next => rfl

/-- An underscore in front of a text is cleaned away. -/
theorem cleaned_underscore_cons (text : List Char) : cleaned ('_' :: text) = cleaned text := by
  rw [cleaned, cleaned, List.map_cons, ite_self, collapse]
  split
  next tail same => rw [if_pos rfl, same]
  next => rw [trimUnderscores, trimUnderscores, List.dropWhile_cons_of_pos (by decide)]

/-- The text is clean: it consists of word characters, no two underscores follow each other, and
none is at an end. -/
structure IsClean (text : List Char) : Prop where
  characters : ∀ character ∈ text, isWordCharacter character = true
  apart : text.IsChain fun left right => left = '_' → right ≠ '_'
  head : text.head? ≠ some '_'
  last : text.getLast? ≠ some '_'

/-- Underscores that stand apart are not collapsed. -/
theorem collapse_of_isChain
    {text : List Char}
    (apart : text.IsChain fun left right => left = '_' → right ≠ '_') :
    collapse text = text := by
  induction text with
  | nil => rfl
  | cons first rest hypothesis =>
      rw [collapse, hypothesis apart.tail]
      split
      next tail => rw [if_neg fun same => (List.isChain_cons_cons.mp apart).1 same rfl]
      next => rfl

theorem map_of_isWordCharacter
    {text : List Char}
    (characters : ∀ character ∈ text, isWordCharacter character = true) :
    (text.map fun character => if isWordCharacter character then character else '_') = text := by
  rw [List.map_congr_left fun character member => if_pos (characters character member)]
  exact List.map_id text

/-- A clean text stays as it is. -/
theorem IsClean.cleaned_eq
    {text : List Char}
    (clean : IsClean text) :
    cleaned text = text := by
  have last : text.reverse.head? ≠ some '_' := List.head?_reverse ▸ clean.last
  rw [cleaned, map_of_isWordCharacter clean.characters, collapse_of_isChain clean.apart,
    trimUnderscores, List.dropWhile_beq_eq_self_of_head?_ne clean.head,
    List.dropWhile_beq_eq_self_of_head?_ne last, List.reverse_reverse]

/-- An underscore behind a clean text is cleaned away. -/
theorem IsClean.cleaned_append_underscore
    {text : List Char}
    (clean : IsClean text) :
    cleaned (text ++ ['_']) = text := by
  cases text with
  | nil => rfl
  | cons first rest =>
      have last : (first :: rest).reverse.head? ≠ some '_' := List.head?_reverse ▸ clean.last
      have apart : ((first :: rest) ++ ['_']).IsChain fun left right => left = '_' → right ≠ '_' :=
        List.isChain_append.mpr ⟨clean.apart, .singleton _, fun left isLast _ _ same =>
          absurd (same ▸ isLast) clean.last⟩
      have head : ((first :: rest) ++ ['_']).head? ≠ some '_' := clean.head
      rw [cleaned, map_of_isWordCharacter, collapse_of_isChain apart, trimUnderscores,
        List.dropWhile_beq_eq_self_of_head?_ne head, List.reverse_append, List.reverse_singleton,
        List.singleton_append, List.dropWhile_cons_of_pos (by decide),
        List.dropWhile_beq_eq_self_of_head?_ne last, List.reverse_reverse]
      exact List.forall_mem_append.mpr ⟨clean.characters, List.forall_mem_singleton.mpr rfl⟩

/-! ## Letters of ASCII -/

/-- Capitals of ASCII by their codes. -/
theorem isUpper_iff {character : Char} :
    character.isUpper = true ↔ 'A'.val ≤ character.val ∧ character.val ≤ 'Z'.val :=
  decide_eq_true_iff

/-- Small letters of ASCII by their codes. -/
theorem isLower_iff {character : Char} :
    character.isLower = true ↔ 'a'.val ≤ character.val ∧ character.val ≤ 'z'.val :=
  Bool.and_eq_true_iff.trans (and_congr decide_eq_true_iff decide_eq_true_iff)

/-- Digits of ASCII by their codes. -/
theorem isDigit_iff {character : Char} :
    character.isDigit = true ↔ '0'.val ≤ character.val ∧ character.val ≤ '9'.val :=
  Bool.and_eq_true_iff.trans (and_congr decide_eq_true_iff decide_eq_true_iff)

theorem isAlphanum_iff {character : Char} :
    character.isAlphanum = true ↔
      (character.isUpper = true ∨ character.isLower = true) ∨ character.isDigit = true :=
  Bool.or_eq_true_iff.trans (or_congr_left Bool.or_eq_true_iff)

/-- A small letter or a digit of ASCII. -/
def isSmall (character : Char) : Bool := character.isLower || character.isDigit

theorem isSmall_iff {character : Char} :
    isSmall character = true ↔ character.isLower = true ∨ character.isDigit = true :=
  Bool.or_eq_true_iff

theorem isUpper_eq_false_of_isSmall
    {character : Char}
    (small : isSmall character = true) :
    character.isUpper = false := by
  rw [Bool.eq_false_iff, ne_eq, isUpper_iff]
  rw [isSmall_iff, isLower_iff, isDigit_iff] at small
  simp only [UInt32.le_iff_toNat_le] at small ⊢
  simp at small ⊢
  omega

theorem isLower_eq_false_of_isDigit
    {character : Char}
    (digit : character.isDigit = true) :
    character.isLower = false := by
  rw [Bool.eq_false_iff, ne_eq, isLower_iff]
  rw [isDigit_iff] at digit
  simp only [UInt32.le_iff_toNat_le] at digit ⊢
  simp at digit ⊢
  omega

theorem isWordCharacter_of_isSmall
    {character : Char}
    (small : isSmall character = true) :
    isWordCharacter character = true := by
  rw [isWordCharacter, Bool.or_eq_true, isAlphanum_iff]
  exact .inl ((isSmall_iff.mp small).imp_left .inr)

theorem ne_underscore_of_isSmall
    {character : Char}
    (small : isSmall character = true) :
    character ≠ '_' := by
  rintro rfl
  cases small

theorem toLower_of_isUpper_eq_false
    {character : Char}
    (noCapital : character.isUpper = false) :
    character.toLower = character :=
  dif_neg fun capital => Bool.eq_false_iff.mp noCapital (isUpper_iff.mpr capital)

theorem map_toLower
    {text : List Char}
    (small : ∀ character ∈ text, isSmall character = true) :
    text.map Char.toLower = text := by
  rw [List.map_congr_left fun character member =>
    toLower_of_isUpper_eq_false (isUpper_eq_false_of_isSmall (small character member))]
  exact List.map_id text

/-- Code of a capital that becomes a small letter. -/
theorem val_toLower
    {character : Char}
    (capital : character.isUpper = true) :
    character.toLower.val = character.val + ('a'.val - 'A'.val) := by
  delta Char.toLower
  rw [dif_pos (isUpper_iff.mp capital)]

/-- Code of a small letter that becomes a capital. -/
theorem val_toUpper
    {character : Char}
    (small : character.isLower = true) :
    character.toUpper.val = character.val + ('A'.val - 'a'.val) := by
  delta Char.toUpper
  rw [dif_pos (isLower_iff.mp small)]

theorem isLower_toLower
    {character : Char}
    (capital : character.isUpper = true) :
    character.toLower.isLower = true := by
  rw [isLower_iff, val_toLower capital]
  rw [isUpper_iff] at capital
  refine ⟨?_, ?_⟩ <;> simp only [UInt32.le_iff_toNat_le] at capital ⊢ <;>
    simp [UInt32.toNat_add] at capital ⊢ <;> omega

theorem isSmall_toLower
    {character : Char}
    (alphanumeric : character.isAlphanum = true) :
    isSmall character.toLower = true := by
  cases capital : character.isUpper with
  | true => exact isSmall_iff.mpr (.inl (isLower_toLower capital))
  | false =>
      rw [toLower_of_isUpper_eq_false capital, isSmall_iff]
      refine (isAlphanum_iff.mp alphanumeric).imp_left fun letter => ?_
      exact letter.resolve_left (Bool.eq_false_iff.mp capital)

theorem isUpper_toUpper
    {character : Char}
    (small : character.isLower = true) :
    character.toUpper.isUpper = true := by
  rw [isUpper_iff, val_toUpper small]
  rw [isLower_iff] at small
  refine ⟨?_, ?_⟩ <;> simp only [UInt32.le_iff_toNat_le] at small ⊢ <;>
    simp [UInt32.toNat_add] at small ⊢ <;> omega

theorem toUpper_of_isLower_eq_false
    {character : Char}
    (noLetter : character.isLower = false) :
    character.toUpper = character :=
  dif_neg fun small => Bool.eq_false_iff.mp noLetter (isLower_iff.mpr small)

/-- Making a capital of a small letter and a small letter of the capital gives the letter. -/
theorem toLower_toUpper
    {character : Char}
    (small : isSmall character = true) :
    character.toUpper.toLower = character := by
  cases letter : character.isLower with
  | false =>
      rw [toUpper_of_isLower_eq_false letter,
        toLower_of_isUpper_eq_false (isUpper_eq_false_of_isSmall small)]
  | true =>
      refine Char.ext ?_
      rw [val_toLower (isUpper_toUpper letter), val_toUpper letter, UInt32.add_assoc]
      exact UInt32.add_zero _

/-! ## Splitting -/

/-- An underscore stands in a group of its own. -/
theorem eq_underscore_of_mem
    {group : List Char}
    (joined : group.IsChain fun left right => sameWord left right = true)
    (member : '_' ∈ group) :
    group = ['_'] := by
  induction group with
  | nil => cases member
  | cons first rest hypothesis =>
      cases rest with
      | nil => rw [List.mem_singleton.mp member]
      | cons second others =>
          obtain ⟨neighbours, further⟩ := List.isChain_cons_cons.mp joined
          rw [sameWord, Bool.and_eq_true, Bool.and_eq_true] at neighbours
          obtain ⟨⟨leftVisible, rightVisible⟩, -⟩ := neighbours
          rcases List.mem_cons.mp member with rfl | later
          · cases leftVisible
          · obtain ⟨rfl, -⟩ := List.cons.inj (hypothesis further later)
            cases rightVisible

/-- The word is not empty, and it consists of small letters and digits. -/
def IsWord (word : List Char) : Prop :=
  word ≠ [] ∧ ∀ character ∈ word, isSmall character = true

/-- Words of a text of word characters are words. -/
theorem isWord_of_mem_splitWords
    {text word : List Char}
    (characters : ∀ character ∈ text, isWordCharacter character = true)
    (member : word ∈ splitWords text) :
    IsWord word := by
  obtain ⟨group, filtered, rfl⟩ := List.mem_map.mp member
  obtain ⟨isGroup, visible⟩ := List.mem_filter.mp filtered
  have nonempty := List.ne_nil_of_mem_splitBy isGroup
  refine ⟨fun empty => nonempty (List.map_eq_nil_iff.mp empty), fun character inWord => ?_⟩
  obtain ⟨sign, inGroup, rfl⟩ := List.mem_map.mp inWord
  have inText : sign ∈ text := by
    rw [← List.flatten_splitBy sameWord text]
    exact List.mem_flatten.mpr ⟨group, isGroup, inGroup⟩
  have kept := characters sign inText
  rw [isWordCharacter, Bool.or_eq_true] at kept
  refine isSmall_toLower (kept.resolve_right fun isUnderscore => ?_)
  rw [of_decide_eq_true isUnderscore] at inGroup
  have alone := eq_underscore_of_mem (List.isChain_of_mem_splitBy isGroup) inGroup
  exact of_decide_eq_true visible alone

/-- Groups that are an underscore or have none lose exactly their underscores. -/
theorem flatten_filter_groups
    {groups : List (List Char)}
    (each : ∀ group ∈ groups, '_' ∈ group → group = ['_']) :
    (groups.filter fun group => group ≠ ['_']).flatten = groups.flatten.filter (· ≠ '_') := by
  induction groups with
  | nil => rfl
  | cons first rest hypothesis =>
      obtain ⟨own, others⟩ := List.forall_mem_cons.mp each
      rw [List.flatten_cons, List.filter_append, ← hypothesis others, List.filter_cons]
      split
      next visible =>
        have kept : first.filter (· ≠ '_') = first := List.filter_eq_self.mpr fun sign member =>
          decide_eq_true fun same => of_decide_eq_true visible (own (same ▸ member))
        rw [List.flatten_cons, kept]
      next hidden =>
        have same : first = ['_'] := by simpa using hidden
        rw [same]
        rfl

/-- The words of a text, one after another, are the text in small letters without its
underscores. -/
theorem flatten_splitWords (text : List Char) :
    (splitWords text).flatten = (text.filter (· ≠ '_')).map Char.toLower := by
  rw [splitWords, ← List.map_flatten, flatten_filter_groups fun group isGroup =>
    eq_underscore_of_mem (List.isChain_of_mem_splitBy isGroup), List.flatten_splitBy]

/-! ## Words joined by underscores -/

theorem sameWord_of_isSmall
    {left right : Char}
    (leftSmall : isSmall left = true)
    (rightSmall : isSmall right = true) :
    sameWord left right = true := by
  simp [sameWord, ne_underscore_of_isSmall leftSmall, ne_underscore_of_isSmall rightSmall,
    isUpper_eq_false_of_isSmall rightSmall]

/-- A word is a group of its own. -/
theorem IsWord.splitBy
    {word : List Char}
    (isWord : IsWord word) :
    word.splitBy sameWord = [word] := by
  refine List.splitBy_of_isChain isWord.1 (List.Pairwise.isChain ?_)
  exact List.pairwise_of_forall_mem_list fun left isLeft right isRight =>
    sameWord_of_isSmall (isWord.2 left isLeft) (isWord.2 right isRight)

theorem IsWord.ne_underscore
    {word : List Char}
    (isWord : IsWord word) :
    word ≠ ['_'] := by
  rintro rfl
  exact ne_underscore_of_isSmall (isWord.2 '_' List.mem_cons_self) rfl

/-- A word in front of an underscore is the first of the words. -/
theorem IsWord.splitWords_append
    {word rest : List Char}
    (isWord : IsWord word) :
    splitWords (word ++ '_' :: rest) = word :: splitWords rest := by
  have before : ∀ left ∈ word.getLast?, ∀ right ∈ ('_' :: rest).head?,
      sameWord left right = false :=
    fun left _ right same => by rw [← Option.some.inj same]; simp [sameWord]
  have behind : ∀ left ∈ ['_'].getLast?, ∀ right ∈ rest.head?, sameWord left right = false :=
    fun left same right _ => by rw [← Option.some.inj same]; rfl
  have groups :
      (word ++ '_' :: rest).splitBy sameWord = word :: ['_'] :: rest.splitBy sameWord := by
    rw [List.splitBy_append before, isWord.splitBy, ← List.singleton_append (l := rest),
      List.splitBy_append behind]
    rfl
  simp [splitWords, groups, isWord.ne_underscore, map_toLower isWord.2]

theorem IsWord.splitWords_eq
    {word : List Char}
    (isWord : IsWord word) :
    splitWords word = [word] := by
  simp [splitWords, isWord.splitBy, isWord.ne_underscore, map_toLower isWord.2]

/-- Joined words are split into the same words. -/
theorem splitWords_intercalate
    {words : List (List Char)}
    (each : ∀ word ∈ words, IsWord word) :
    splitWords (['_'].intercalate words) = words := by
  induction words with
  | nil => rfl
  | cons first rest hypothesis =>
      obtain ⟨own, others⟩ := List.forall_mem_cons.mp each
      cases rest with
      | nil => rw [List.intercalate_singleton, own.splitWords_eq]
      | cons second rest =>
          rw [List.intercalate_cons_cons, List.append_assoc, List.singleton_append,
            own.splitWords_append, hypothesis others]

/-- Joined words have no signs but their own and the one between them. -/
theorem mem_intercalate
    {separator character : Char}
    {parts : List (List Char)}
    (member : character ∈ [separator].intercalate parts) :
    character = separator ∨ ∃ part ∈ parts, character ∈ part := by
  induction parts with
  | nil => cases member
  | cons first rest hypothesis =>
      cases rest with
      | nil =>
          rw [List.intercalate_singleton] at member
          exact .inr ⟨first, List.mem_cons_self, member⟩
      | cons second others =>
          rw [List.intercalate_cons_cons, List.append_assoc, List.mem_append,
            List.mem_append] at member
          rcases member with own | between | later
          · exact .inr ⟨first, List.mem_cons_self, own⟩
          · exact .inl (List.mem_singleton.mp between)
          · refine (hypothesis later).imp_right fun ⟨part, isPart, inPart⟩ => ?_
            exact ⟨part, List.mem_cons_of_mem first isPart, inPart⟩

theorem IsWord.isClean
    {word : List Char}
    (isWord : IsWord word) :
    IsClean word where
  characters := fun character member => isWordCharacter_of_isSmall (isWord.2 character member)
  apart := List.Pairwise.isChain <| List.pairwise_of_forall_mem_list fun _ _ right isRight _ =>
    ne_underscore_of_isSmall (isWord.2 right isRight)
  head := fun same =>
    ne_underscore_of_isSmall (isWord.2 '_' (List.mem_of_mem_head? same)) rfl
  last := fun same =>
    ne_underscore_of_isSmall (isWord.2 '_' (List.mem_of_getLast? same)) rfl

/-- A clean text behind a word and an underscore is clean with these. -/
theorem IsClean.word_append
    {word rest : List Char}
    (clean : IsClean rest)
    (visible : rest ≠ [])
    (isWord : IsWord word) :
    IsClean (word ++ '_' :: rest) where
  characters := List.forall_mem_append.mpr ⟨isWord.isClean.characters,
    List.forall_mem_cons.mpr ⟨rfl, clean.characters⟩⟩
  apart := by
    have behind : ('_' :: rest).IsChain fun left right => left = '_' → right ≠ '_' :=
      List.isChain_cons.mpr ⟨fun right isHead _ same => clean.head (same ▸ isHead), clean.apart⟩
    refine List.isChain_append.mpr ⟨isWord.isClean.apart, behind, fun left isLast _ _ same => ?_⟩
    exact absurd (same ▸ isLast) isWord.isClean.last
  head := by
    rw [List.head?_append_of_ne_nil _ isWord.1]
    exact isWord.isClean.head
  last := by
    rw [← List.singleton_append (l := rest), ← List.append_assoc,
      List.getLast?_append_of_ne_nil _ visible]
    exact clean.last

/-- Joined words are a clean text. -/
theorem isClean_intercalate
    {words : List (List Char)}
    (each : ∀ word ∈ words, IsWord word) :
    IsClean (['_'].intercalate words) := by
  induction words with
  | nil => exact ⟨List.forall_mem_nil _, .nil, nofun, nofun⟩
  | cons first rest hypothesis =>
      obtain ⟨own, others⟩ := List.forall_mem_cons.mp each
      cases rest with
      | nil =>
          rw [List.intercalate_singleton]
          exact own.isClean
      | cons second rest =>
          rw [List.intercalate_cons_cons, List.append_assoc, List.singleton_append]
          refine (hypothesis others).word_append (fun empty => ?_) own
          have none := splitWords_intercalate others
          rw [empty] at none
          cases none

end Name
end SchemaCompiler
