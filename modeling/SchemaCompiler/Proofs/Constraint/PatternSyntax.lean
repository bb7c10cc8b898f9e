import SchemaCompiler.Constraint.Pattern

/-!
# Syntax of patterns

A pattern is read as a list of pieces: signs that stand for themselves, the two ends of a text and
groups of alternatives. A backslash makes a sign of any character that has a meaning of its own;
what the other characters of this kind mean is not needed here, and a pattern with one of them is
not read any further. Pieces match parts of a text, and a search looks for such a part.
-/

namespace SchemaCompiler
namespace Constraint

/-- A piece of a pattern. -/
inductive Piece where
  /-- The beginning of the text. -/
  | start
  /-- The end of the text. -/
  | finish
  | sign (character : Char)
  | group (alternatives : List (List Piece))

namespace Piece

/-- Signs one after another. -/
def literal (text : List Char) : List Piece := text.map sign

/-- The character of a sign. -/
def character? : Piece → Option Char
  | .sign character => some character
  | _ => none

theorem filterMap_character?_literal (text : List Char) :
    (literal text).filterMap character? = text := by
  rw [literal, List.filterMap_map]
  exact List.filterMap_some

/-! ## Matching -/

mutual

/-- The piece matches a part of a text, which stands between two others. -/
def Matches : Piece → (before part after : List Char) → Prop
  | .start, before, part, _ => before = [] ∧ part = []
  | .finish, _, part, after => after = [] ∧ part = []
  | .sign character, _, part, _ => part = [character]
  | .group alternatives, before, part, after => AnyMatches alternatives before part after

/-- The pieces match parts of a text one after another. -/
def AllMatch : List Piece → (before part after : List Char) → Prop
  | [], _, part, _ => part = []
  | first :: rest, before, part, after =>
      ∃ own others, part = own ++ others ∧ first.Matches before own (others ++ after) ∧
        AllMatch rest (before ++ own) others after

/-- One of the lists of pieces matches. -/
def AnyMatches : List (List Piece) → (before part after : List Char) → Prop
  | [], _, _, _ => False
  | first :: rest, before, part, after =>
      AllMatch first before part after ∨ AnyMatches rest before part after

end

variable {before part after : List Char}

/-- Signs match what is written with them, wherever it stands. -/
theorem allMatch_literal_iff
    {text : List Char} :
    AllMatch (literal text) before part after ↔ part = text := by
  induction text generalizing before part with
  | nil => rfl
  | cons first rest hypothesis =>
      rw [literal, List.map_cons, AllMatch]
      constructor
      · rintro ⟨own, others, rfl, isFirst, areOthers⟩
        rw [Matches] at isFirst
        rw [isFirst, hypothesis.mp areOthers, List.singleton_append]
      · rintro rfl
        exact ⟨[first], rest, rfl, by rw [Matches], hypothesis.mpr rfl⟩

/-- One of several texts matches what is written with it. -/
theorem anyMatches_literals_iff
    {texts : List (List Char)} :
    AnyMatches (texts.map literal) before part after ↔ part ∈ texts := by
  induction texts with
  | nil => simp [AnyMatches]
  | cons first rest hypothesis =>
      rw [List.map_cons, AnyMatches, allMatch_literal_iff, hypothesis, List.mem_cons]

/-- A search for the pieces finds a part of the text. -/
def Accepts (pieces : List Piece) (text : List Char) : Prop :=
  ∃ before part after, text = before ++ part ++ after ∧ AllMatch pieces before part after

/-- The pieces that match one of the texts as a whole. -/
def enumeration (texts : List (List Char)) : List Piece :=
  [.start, .group (texts.map literal), .finish]

theorem allMatch_enumeration_iff
    {texts : List (List Char)} :
    AllMatch (enumeration texts) before part after ↔ before = [] ∧ after = [] ∧ part ∈ texts := by
  simp only [enumeration, AllMatch, Matches, anyMatches_literals_iff]
  constructor
  · rintro ⟨_, _, rfl, ⟨rfl, rfl⟩, own, _, rfl, listed, last, _, rfl, ⟨ends, rfl⟩, rfl⟩
    exact ⟨rfl, ends, by simpa using listed⟩
  · rintro ⟨rfl, rfl, listed⟩
    exact ⟨[], part, rfl, ⟨rfl, rfl⟩, part, [], (List.append_nil part).symm, listed, [], [], rfl,
      ⟨rfl, rfl⟩, rfl⟩

/-- A search for one of several texts as a whole accepts these texts and no others. -/
theorem accepts_enumeration_iff
    {texts : List (List Char)}
    {text : List Char} :
    Accepts (enumeration texts) text ↔ text ∈ texts := by
  simp only [Accepts, allMatch_enumeration_iff]
  constructor
  · rintro ⟨_, part, _, rfl, rfl, rfl, listed⟩
    simpa using listed
  · exact fun listed => ⟨[], text, [], by simp, rfl, rfl, listed⟩

end Piece

/-! ## Reading -/

/-- Alternatives that are being read, the latest first, and the latest of them backwards. -/
structure Alternatives where
  finished : List (List Piece) := []
  current : List Piece := []

namespace Alternatives

/-- One more piece. -/
def add (piece : Piece) (alternatives : Alternatives) : Alternatives :=
  { alternatives with current := piece :: alternatives.current }

/-- The alternatives with a new one begun. -/
def divide (alternatives : Alternatives) : Alternatives :=
  ⟨alternatives.current.reverse :: alternatives.finished, []⟩

/-- All alternatives in order. -/
def toList (alternatives : Alternatives) : List (List Piece) :=
  (alternatives.current.reverse :: alternatives.finished).reverse

end Alternatives

/-- What has been read of the first alternative of a pattern: its pieces backwards, and the groups
that are open at the end of it, the innermost first. -/
structure Reading where
  pieces : List Piece := []
  groups : List Alternatives := []

namespace Reading

/-- One more piece, in the innermost group. -/
def add (piece : Piece) (reading : Reading) : Reading :=
  match reading.groups with
  | [] => { reading with pieces := piece :: reading.pieces }
  | inner :: outer => { reading with groups := inner.add piece :: outer }

/-- One more group. -/
def enter (reading : Reading) : Reading := { reading with groups := {} :: reading.groups }

/-- The innermost group is complete. -/
def leave? (reading : Reading) : Option Reading :=
  match reading.groups with
  | [] => none
  | inner :: outer => some (Reading.add (.group inner.toList) { reading with groups := outer })

/-- Several more pieces. -/
def addAll (pieces : List Piece) (reading : Reading) : Reading :=
  pieces.foldl (fun reading piece => reading.add piece) reading

end Reading

/-- The first alternative of a pattern and the text of the others, which follows it. -/
def readBranch (reading : Reading) : List Char → Option (List Piece × List Char)
  | [] => none
  | first :: rest =>
      if patternSigns.contains first then
        match first, rest with
        | '\\', escaped :: rest =>
            if patternSigns.contains escaped then readBranch (reading.add (.sign escaped)) rest
            else none
        | '(', '?' :: ':' :: rest => readBranch reading.enter rest
        | ')', rest => reading.leave?.bind fun reading => readBranch reading rest
        | '|', rest =>
            match reading.groups with
            | [] => some (reading.pieces.reverse, rest)
            | inner :: outer => readBranch { reading with groups := inner.divide :: outer } rest
        | '^', rest => readBranch (reading.add .start) rest
        | '$', rest => readBranch (reading.add .finish) rest
        | _, _ => none
      else readBranch (reading.add (.sign first)) rest

/-- What stands in front of the first closing bracket without a backslash, and what follows the
bracket. -/
def splitAtClosing? : List Char → Option (List Char × List Char)
  | [] => none
  | first :: rest =>
      if first = ')' then some ([], rest)
      else if first = '\\' then
        match rest with
        | [] => none
        | escaped :: rest => (splitAtClosing? rest).map (Prod.map (first :: escaped :: ·) id)
      else (splitAtClosing? rest).map (Prod.map (first :: ·) id)

/-- No sign of the text closes a group, whatever follows the text. -/
def KeepsOpen (text : List Char) : Prop :=
  ∀ rest, splitAtClosing? (text ++ rest) = (splitAtClosing? rest).map (Prod.map (text ++ ·) id)

theorem keepsOpen_nil : KeepsOpen [] := fun rest => by
  rw [List.nil_append]
  exact (Option.map_id_apply ..).symm

theorem KeepsOpen.append
    {left right : List Char}
    (first : KeepsOpen left)
    (second : KeepsOpen right) :
    KeepsOpen (left ++ right) := by
  intro rest
  rw [List.append_assoc, first, second, Option.map_map]
  refine Option.map_congr fun parts _ => Prod.ext ?_ rfl
  exact (List.append_assoc ..).symm

theorem keepsOpen_sign
    {character : Char}
    (noBracket : character ≠ ')')
    (noBackslash : character ≠ '\\') :
    KeepsOpen [character] := by
  intro rest
  rw [List.singleton_append, splitAtClosing?.eq_def (character :: rest)]
  exact (if_neg noBracket).trans (if_neg noBackslash)

theorem keepsOpen_escaped (character : Char) : KeepsOpen ['\\', character] := fun _ => rfl

/-- Texts that keep a group open do so together, if what stands between them does. -/
theorem keepsOpen_intercalate
    {separator : List Char}
    {texts : List (List Char)}
    (between : KeepsOpen separator)
    (each : ∀ text ∈ texts, KeepsOpen text) :
    KeepsOpen (separator.intercalate texts) := by
  induction texts with
  | nil => exact keepsOpen_nil
  | cons first others hypothesis =>
      obtain ⟨own, further⟩ := List.forall_mem_cons.mp each
      cases others with
      | nil => rwa [List.intercalate_singleton]
      | cons second others =>
          rw [List.intercalate_cons_cons]
          exact (own.append between).append (hypothesis further)

end Constraint
end SchemaCompiler
