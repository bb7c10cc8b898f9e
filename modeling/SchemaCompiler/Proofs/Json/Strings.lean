import SchemaCompiler.Json.Reader
import SchemaCompiler.Json.Writer
import SchemaCompiler.Proofs.Outcome

/-!
# Strings in quotes

A text that is written in quotes reads back as it was, whatever follows the closing quote.
-/

namespace SchemaCompiler
namespace Json

/-- Four hexadecimal digits stand for the code of the control character they are written from. -/
theorem hexDigits_spec :
    ∀ code < 0x20, (hexDigits code).length = 4 ∧
      (hexDigits code).all (fun digit => (Text.hexDigit? digit).isSome) ∧
      Text.hexValue (hexDigits code) = code := by
  decide

theorem readHex_hexDigits
    {code : Nat}
    (control : code < 0x20)
    (rest : List Char) :
    readHex (hexDigits code ++ rest) = .ok (code, rest) := by
  obtain ⟨length, digits, value⟩ := hexDigits_spec code control
  match hexDigits code, length, digits, value with
  | [first, second, third, fourth], _, digits, value =>
      simp only [readHex, List.cons_append, List.nil_append, digits, value, if_true]

/-- No control character is a part of a pair. -/
theorem readUnicodeEscape_hexDigits
    {character : Char}
    (control : character.toNat < 0x20)
    (rest : List Char) :
    readUnicodeEscape (hexDigits character.toNat ++ rest) = .ok (character, rest) := by
  have leading : isLeadingSurrogate character.toNat = false := by
    simp [isLeadingSurrogate]
    omega
  have trailing : isTrailingSurrogate character.toNat = false := by
    simp [isTrailingSurrogate]
    omega
  rw [readUnicodeEscape, readHex_hexDigits control]
  simp [leading, trailing, Char.ofNat_toNat]
  rfl

/-- A character in quotes is a short escape, an escape by number or the character itself. -/
theorem quotedCharacter_cases (character : Char) :
    (∃ letter, letter ≠ 'u' ∧ shortEscape? letter = some character ∧
        quotedCharacter character = ['\\', letter]) ∨
      (character.toNat < 0x20 ∧
        quotedCharacter character = '\\' :: 'u' :: hexDigits character.toNat) ∨
      character ≠ '"' ∧ character ≠ '\\' ∧ ¬character.toNat < 0x20 ∧
        quotedCharacter character = [character] := by
  unfold quotedCharacter
  split
  next same => exact .inl ⟨'"', by decide, by subst same; rfl, rfl⟩
  split
  next same => exact .inl ⟨'\\', by decide, by subst same; rfl, rfl⟩
  split
  next same => exact .inl ⟨'n', by decide, by subst same; rfl, rfl⟩
  split
  next same => exact .inl ⟨'r', by decide, by subst same; rfl, rfl⟩
  split
  next same => exact .inl ⟨'t', by decide, by subst same; rfl, rfl⟩
  split
  next same => exact .inl ⟨'b', by decide, by subst same; rfl, rfl⟩
  split
  next same => exact .inl ⟨'f', by decide, by subst same; rfl, rfl⟩
  split
  next control => exact .inr (.inl ⟨control, rfl⟩)
  next quote backslash _ _ _ _ _ printable =>
    exact .inr (.inr ⟨quote, backslash, printable, rfl⟩)

/-- A character in quotes is read as itself. -/
theorem readCharacters_quotedCharacter
    (limit : Nat)
    (character : Char)
    (rest : List Char) :
    readCharacters (limit + 1) (quotedCharacter character ++ rest) = do
      let (characters, after) ← readCharacters limit rest
      return (character :: characters, after) := by
  obtain ⟨letter, notNumber, short, same⟩ | ⟨control, same⟩ | ⟨quote, backslash, printable, same⟩ :=
    quotedCharacter_cases character
  · rw [same, List.cons_append, List.singleton_append, readCharacters, short]
    exact notNumber
  · rw [same, List.cons_append, List.cons_append, readCharacters,
      readUnicodeEscape_hexDigits control]
    rfl
  · rw [same, List.singleton_append, readCharacters, if_neg printable]
    · exact quote
    · exact fun slash => absurd slash backslash
    · exact fun _ slash => absurd slash backslash
    · exact fun _ _ slash => absurd slash backslash

/-- A character in quotes is passed over. -/
theorem skipCharacters_quotedCharacter
    (limit : Nat)
    (character : Char)
    (rest : List Char) :
    skipCharacters (limit + 1) (quotedCharacter character ++ rest) =
      skipCharacters limit rest := by
  obtain ⟨letter, notNumber, short, same⟩ | ⟨control, same⟩ | ⟨quote, backslash, printable, same⟩ :=
    quotedCharacter_cases character
  · rw [same, List.cons_append, List.singleton_append, skipCharacters, short]
    · rfl
    exact notNumber
  · rw [same, List.cons_append, List.cons_append, skipCharacters, readHex_hexDigits control]
    rfl
  · rw [same, List.singleton_append, skipCharacters, if_neg printable]
    · exact quote
    · exact fun slash => absurd slash backslash
    · exact fun _ slash => absurd slash backslash
    · exact fun _ _ slash => absurd slash backslash

/-- Characters in quotes are read as themselves. -/
theorem readCharacters_quoted
    {limit : Nat}
    {characters : List Char}
    (enough : characters.length < limit)
    (rest : List Char) :
    readCharacters limit (characters.flatMap quotedCharacter ++ '"' :: rest) =
      .ok (characters, rest) := by
  induction characters generalizing limit with
  | nil =>
      obtain ⟨limit, rfl⟩ := Nat.exists_eq_add_one.mpr enough
      rfl
  | cons character characters hypothesis =>
      obtain ⟨limit, rfl⟩ := Nat.exists_eq_add_one.mpr (Nat.zero_lt_of_lt enough)
      rw [List.flatMap_cons, List.append_assoc, readCharacters_quotedCharacter,
        hypothesis (Nat.lt_of_succ_lt_succ enough)]
      rfl

/-- Characters in quotes are passed over. -/
theorem skipCharacters_quoted
    {limit : Nat}
    {characters : List Char}
    (enough : characters.length < limit)
    (rest : List Char) :
    skipCharacters limit (characters.flatMap quotedCharacter ++ '"' :: rest) = .ok rest := by
  induction characters generalizing limit with
  | nil =>
      obtain ⟨limit, rfl⟩ := Nat.exists_eq_add_one.mpr enough
      rfl
  | cons character characters hypothesis =>
      obtain ⟨limit, rfl⟩ := Nat.exists_eq_add_one.mpr (Nat.zero_lt_of_lt enough)
      rw [List.flatMap_cons, List.append_assoc, skipCharacters_quotedCharacter,
        hypothesis (Nat.lt_of_succ_lt_succ enough)]

theorem length_le_flatMap_quotedCharacter (characters : List Char) :
    characters.length ≤ (characters.flatMap quotedCharacter).length := by
  induction characters with
  | nil => exact Nat.le_refl 0
  | cons character characters hypothesis =>
      have nonempty : 1 ≤ (quotedCharacter character).length := by
        obtain ⟨_, _, _, same⟩ | ⟨_, same⟩ | ⟨_, _, _, same⟩ := quotedCharacter_cases character <;>
          simp [same]
      rw [List.flatMap_cons, List.length_append, List.length_cons]
      omega

/-- The characters of a text in quotes. -/
theorem toList_quoted (text : String) :
    (quoted text).toList = '"' :: text.toList.flatMap quotedCharacter ++ ['"'] :=
  String.toList_ofList

/-- A text in quotes is read as itself. -/
theorem readStringDraft_quoted
    (text : String)
    (rest : List Char) :
    Draft.readStringDraft (text.toList.flatMap quotedCharacter ++ '"' :: rest) =
      (.string text, some rest) := by
  have enough : text.toList.length <
      (text.toList.flatMap quotedCharacter ++ '"' :: rest).length + 1 := by
    have := length_le_flatMap_quotedCharacter text.toList
    rw [List.length_append]
    omega
  rw [Draft.readStringDraft, readString, skipString, readCharacters_quoted enough,
    skipCharacters_quoted enough, Outcome.ok_bind]
  change (Draft.string (String.ofList text.toList), some rest) = _
  rw [String.ofList_toList]

end Json
end SchemaCompiler
