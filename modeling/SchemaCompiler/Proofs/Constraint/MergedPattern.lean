import SchemaCompiler.Proofs.Constraint.PatternSyntax

/-!
# Values merged into a pattern

A text field with enumerated values and a pattern of its own has one pattern that accepts either.
The values can be any texts, with brackets, bars and backslashes in them, and so can the pattern.
Escaping keeps them apart: whatever the values are, no sign of theirs closes the group that they
stand in, ends a value or has a meaning of its own, so that both can be read off the whole.
-/

namespace SchemaCompiler
namespace Constraint

/-! ## Reading signs -/

section Signs

variable
  {reading : Reading}
  {character : Char}
  {rest : List Char}

/-- A plain character is a sign of its own. -/
theorem readBranch_plain
    (plain : patternSigns.contains character = false) :
    readBranch reading (character :: rest) = readBranch (reading.add (.sign character)) rest := by
  rw [readBranch.eq_def reading (character :: rest)]
  exact if_neg (Bool.eq_false_iff.mp plain)

/-- Any other character is one behind a backslash. -/
theorem readBranch_escaped
    (special : patternSigns.contains character = true) :
    readBranch reading ('\\' :: character :: rest) =
      readBranch (reading.add (.sign character)) rest := by
  rw [readBranch.eq_def reading ('\\' :: character :: rest)]
  exact if_pos special

/-- An escaped text is read as its own signs. -/
theorem readBranch_escapePattern (text : List Char) :
    readBranch reading (escapePattern text ++ rest) =
      readBranch (reading.addAll (Piece.literal text)) rest := by
  induction text generalizing reading with
  | nil => rfl
  | cons first others hypothesis =>
      rw [escapePattern_cons]
      split
      next special =>
        rw [List.cons_append, List.cons_append, readBranch_escaped special, hypothesis]
        rfl
      next plain =>
        rw [List.cons_append, readBranch_plain (Bool.eq_false_iff.mpr plain), hypothesis]
        rfl

end Signs

/-! ## Reading a group -/

section Groups

variable
  {pieces : List Piece}
  {outer : List Alternatives}
  {finished : List (List Piece)}
  {rest : List Char}

/-- Pieces that are read inside a group belong to its latest alternative. -/
theorem addAll_inside
    (inside current : List Piece) :
    Reading.addAll inside ⟨pieces, ⟨finished, current⟩ :: outer⟩ =
      ⟨pieces, ⟨finished, inside.reverse ++ current⟩ :: outer⟩ := by
  induction inside generalizing current with
  | nil => rfl
  | cons first others hypothesis =>
      rw [List.reverse_cons, List.append_assoc]
      exact hypothesis (first :: current)

/-- One escaped text is one alternative of the group around it. -/
theorem readBranch_alternative (text : List Char) :
    readBranch ⟨pieces, ⟨finished, []⟩ :: outer⟩ (escapePattern text ++ rest) =
      readBranch ⟨pieces, ⟨finished, (Piece.literal text).reverse⟩ :: outer⟩ rest := by
  rw [readBranch_escapePattern, addAll_inside, List.append_nil]

theorem readBranch_bar (current : List Piece) :
    readBranch ⟨pieces, ⟨finished, current⟩ :: outer⟩ ('|' :: rest) =
      readBranch ⟨pieces, ⟨current.reverse :: finished, []⟩ :: outer⟩ rest := rfl

theorem readBranch_close (current : List Piece) :
    readBranch ⟨pieces, ⟨finished, current⟩ :: outer⟩ (')' :: rest) =
      readBranch
        (Reading.add (.group (finished.reverse ++ [current.reverse])) ⟨pieces, outer⟩) rest := by
  rw [← List.reverse_cons]
  rfl

/-- Escaped texts with bars between them are the alternatives of the group that is closed behind
them, one by one. -/
theorem readBranch_alternatives
    {texts : List (List Char)}
    (nonempty : texts ≠ []) :
    readBranch ⟨pieces, ⟨finished, []⟩ :: outer⟩
        (['|'].intercalate (texts.map escapePattern) ++ ')' :: rest) =
      readBranch
        (Reading.add (.group (finished.reverse ++ texts.map Piece.literal)) ⟨pieces, outer⟩)
        rest := by
  induction texts generalizing finished with
  | nil => exact absurd rfl nonempty
  | cons first others hypothesis =>
      cases others with
      | nil =>
          rw [List.map_singleton, List.intercalate_singleton, readBranch_alternative,
            readBranch_close, List.reverse_reverse]
          rfl
      | cons second others =>
          have further := @hypothesis (Piece.literal first :: finished)
            (List.cons_ne_nil second others)
          rw [List.map_cons, List.map_cons, List.intercalate_cons_cons, List.append_assoc,
            List.append_assoc, readBranch_alternative, List.singleton_append, readBranch_bar,
            List.reverse_reverse, ← List.map_cons, further, List.reverse_cons, List.append_assoc]
          rfl

end Groups

/-! ## The whole pattern -/

/-- No sign of an escaped text closes the group around it. -/
theorem keepsOpen_escapePattern (text : List Char) : KeepsOpen (escapePattern text) := by
  induction text with
  | nil => exact keepsOpen_nil
  | cons first rest hypothesis =>
      rw [escapePattern_cons]
      split
      next => exact (keepsOpen_escaped first).append hypothesis
      next plain =>
        refine (keepsOpen_sign ?_ ?_).append hypothesis
        all_goals
          rintro rfl
          exact plain (by decide)

/-- The escaped values with bars between them. -/
def alternativesText (values : List String) : List Char :=
  ['|'].intercalate ((values.map String.toList).map escapePattern)

theorem keepsOpen_alternativesText (values : List String) : KeepsOpen (alternativesText values) :=
  keepsOpen_intercalate (keepsOpen_sign (by decide) (by decide))
    (List.forall_mem_map.mpr fun text _ => keepsOpen_escapePattern text)

theorem toList_mergedPattern (values : List String) (pattern : String) :
    (mergedPattern values pattern).toList =
      '^' :: '(' :: '?' :: ':' ::
        (alternativesText values ++ ')' :: '$' :: '|' :: pattern.toList) := by
  have alternatives : (String.intercalate "|" (values.map fun value =>
      String.ofList (escapePattern value.toList))).toList = alternativesText values := by
    rw [String.toList_intercalate, alternativesText, List.map_map, List.map_map]
    congr 1
    exact List.map_congr_left fun _ _ => String.toList_ofList
  rw [mergedPattern, String.toList_append, String.toList_append, String.toList_append, alternatives,
    List.append_assoc, List.append_assoc]
  rfl

/-- The first alternative of a merged pattern is the group of the values between the ends of a
text, and the rest is the other pattern. -/
theorem readBranch_mergedPattern
    {values : List String}
    (nonempty : values ≠ [])
    (pattern : String) :
    readBranch {} (mergedPattern values pattern).toList =
      some (Piece.enumeration (values.map String.toList), pattern.toList) := by
  have opened (rest : List Char) : readBranch {} ('^' :: '(' :: '?' :: ':' :: rest) =
      readBranch ⟨[.start], [⟨[], []⟩]⟩ rest := rfl
  rw [toList_mergedPattern, opened, alternativesText,
    readBranch_alternatives (by simpa using nonempty)]
  rfl

/-- The values and the other pattern that a merged pattern shows. -/
def unmerge? (merged : String) : Option (List String × String) :=
  match readBranch {} merged.toList with
  | some ([.start, .group alternatives, .finish], rest) =>
      some (alternatives.map fun pieces => String.ofList (pieces.filterMap Piece.character?),
        String.ofList rest)
  | _ => none

theorem unmerge?_mergedPattern
    {values : List String}
    (nonempty : values ≠ [])
    (pattern : String) :
    unmerge? (mergedPattern values pattern) = some (values, pattern) := by
  rw [unmerge?, readBranch_mergedPattern nonempty]
  simp [Piece.enumeration, Piece.filterMap_character?_literal, Function.comp_def]

/-- The pattern has the values as the alternatives of a group, which its first closing bracket
closes, and then the other pattern as it stands. As syntax, what comes first is the choice among
the values, each sign of a value standing for itself; it accepts the values and no other text.
Both can be read off the whole. -/
structure Merges (values : List String) (pattern merged : String) : Prop where
  closed : ∃ inside,
    merged.toList = "^(?:".toList ++ inside ++ ")$|".toList ++ pattern.toList ∧
      splitAtClosing? (inside ++ ")$|".toList ++ pattern.toList) =
        some (inside, "$|".toList ++ pattern.toList)
  read : readBranch {} merged.toList =
    some ([.start, .group (values.map fun value => Piece.literal value.toList), .finish],
      pattern.toList)
  accepts : ∀ text : String,
    Piece.Accepts
        [.start, .group (values.map fun value => Piece.literal value.toList), .finish]
        text.toList ↔
      text ∈ values
  recovered : unmerge? merged = some (values, pattern)

/-- Whatever the values and the other pattern are, their merged pattern is unambiguous. -/
theorem mergedPattern_merges
    {values : List String}
    (nonempty : values ≠ [])
    (pattern : String) :
    Merges values pattern (mergedPattern values pattern) := by
  have pieces : Piece.enumeration (values.map String.toList) =
      [.start, .group (values.map fun value => Piece.literal value.toList), .finish] := by
    rw [Piece.enumeration, List.map_map]
    rfl
  refine ⟨⟨alternativesText values, ?_, ?_⟩, ?_, fun text => ?_,
    unmerge?_mergedPattern nonempty pattern⟩
  · rw [toList_mergedPattern]
    simp
  · rw [List.append_assoc, keepsOpen_alternativesText]
    simp [splitAtClosing?]
  · rw [← pieces]
    exact readBranch_mergedPattern nonempty pattern
  · rw [← pieces, Piece.accepts_enumeration_iff]
    simp [String.toList_inj]

/-- Values that look like parts of a pattern, and the empty one, beside a pattern that looks like
the end of the group. -/
theorem mergedPattern_merges_signs :
    ["a|b", ")$|", "\\", "^(?:", ""] ≠ [] ∧
      Merges ["a|b", ")$|", "\\", "^(?:", ""] ")$|x"
        "^(?:a\\|b|\\)\\$\\||\\\\|\\^\\(\\?:|)$|)$|x" :=
  ⟨by decide, mergedPattern_merges (by decide) ")$|x"⟩

end Constraint
end SchemaCompiler
