import Mathlib.Data.List.Induction
import SchemaCompiler.Client.Address
import SchemaCompiler.Schema.Function

/-!
# Parts of addresses

An address is cut into parts twice. When fields are bound, a placeholder is a name
without braces between two of them, wherever it stands. When the address is filled, an
opening brace is paired with the next closing one, whatever is between them. Each part of
the second kind holds whole parts of the first kind, and how an address is cut behind a
placeholder depends on nothing in front of it.
-/

namespace SchemaCompiler
namespace Client

open SchemaCompiler.Schema (placeholdersFrom)

/-! ## Placeholders as they are bound -/

/-- A name that can stand between the braces of a placeholder. -/
structure IsPlaceholder (name : List Char) : Prop where
  filled : name ≠ []
  noOpening : '\x7b' ∉ name
  noClosing : '\x7d' ∉ name

namespace AddressPart

/-- The name of a placeholder. -/
def name? : AddressPart → Option String
  | .sign _ => none
  | .bracketed name => some (String.ofList name)

/-- Two braces with the name between them; braces around nothing are no placeholder. -/
def around (name : List Char) : List AddressPart :=
  if name.isEmpty then [.sign '\x7b', .sign '\x7d'] else [.bracketed name]

@[simp] theorem name?_sign (character : Char) : (sign character).name? = none := rfl

@[simp] theorem name?_bracketed (name : List Char) :
    (bracketed name).name? = some (String.ofList name) := rfl

@[simp] theorem flatMap_written_map_sign (text : List Char) :
    (text.map sign).flatMap written = text := by
  simp [List.flatMap_map, written]

@[simp] theorem flatMap_written_around (name : List Char) :
    (around name).flatMap written = '\x7b' :: name ++ ['\x7d'] := by
  cases name <;> simp [around, written]

end AddressPart

/-- What was read behind an opening brace, together with this brace. -/
def pending : Option (List Char) → List Char
  | none => []
  | some name => '\x7b' :: name

/-- Parts of an address with its placeholders as they are bound, where `opened` is what was
read behind the latest opening brace. -/
def recognizedParts (opened : Option (List Char)) : List Char → List AddressPart
  | [] => (pending opened).map .sign
  | character :: rest =>
      if character = '\x7b' then (pending opened).map .sign ++ recognizedParts (some []) rest
      else
        match opened with
        | none => .sign character :: recognizedParts none rest
        | some name =>
            if character = '\x7d' then AddressPart.around name ++ recognizedParts none rest
            else recognizedParts (some (name ++ [character])) rest

@[simp] theorem recognizedParts_singleton (character : Char) :
    recognizedParts none [character] = [.sign character] := by
  by_cases opening : character = '\x7b' <;> simp [recognizedParts, pending, opening]

/-- The names in the parts are the placeholders that fields can be bound to. -/
theorem filterMap_recognizedParts
    (opened : Option (List Char))
    (text : List Char) :
    (recognizedParts opened text).filterMap AddressPart.name? = placeholdersFrom opened text := by
  induction text generalizing opened with
  | nil => simp [recognizedParts, placeholdersFrom]
  | cons character rest hypothesis =>
      simp only [recognizedParts, placeholdersFrom]
      split
      · simp [hypothesis]
      rcases opened with _ | name
      · simp [List.filterMap_cons, hypothesis]
      · by_cases closing : character = '\x7d' <;> cases name <;>
          simp [List.filterMap_cons, closing, AddressPart.around, hypothesis]

/-- The parts make up the address. -/
theorem written_recognizedParts
    (opened : Option (List Char))
    (text : List Char) :
    (recognizedParts opened text).flatMap AddressPart.written = pending opened ++ text := by
  induction text generalizing opened with
  | nil => simp [recognizedParts]
  | cons character rest hypothesis =>
      simp only [recognizedParts]
      split
      next opening => simp [hypothesis, pending, opening]
      rcases opened with _ | name
      · simp [AddressPart.written, hypothesis, pending]
      · by_cases closing : character = '\x7d' <;> simp [closing, hypothesis, pending]

/-- An opening brace begins anew. -/
theorem recognizedParts_append_opening
    (opened : Option (List Char))
    (text rest : List Char) :
    recognizedParts opened (text ++ '\x7b' :: rest) =
      recognizedParts opened text ++ recognizedParts (some []) rest := by
  induction text generalizing opened with
  | nil => simp [recognizedParts]
  | cons character text hypothesis =>
      simp only [List.cons_append, recognizedParts]
      split
      · simp [hypothesis]
      rcases opened with _ | name
      · simp [hypothesis]
      · by_cases closing : character = '\x7d' <;> simp [closing, hypothesis]

/-- Nothing is open behind a closing brace. -/
theorem recognizedParts_append_closing
    (opened : Option (List Char))
    (text rest : List Char) :
    recognizedParts opened (text ++ '\x7d' :: rest) =
      recognizedParts opened (text ++ ['\x7d']) ++ recognizedParts none rest := by
  induction text generalizing opened with
  | nil => cases opened <;> simp [recognizedParts, pending]
  | cons character text hypothesis =>
      simp only [List.cons_append, recognizedParts]
      split
      · simp [hypothesis]
      rcases opened with _ | name
      · simp [hypothesis]
      · by_cases closing : character = '\x7d' <;> simp [closing, hypothesis]

/-- Without a closing brace there is no placeholder. -/
theorem recognizedParts_of_not_mem
    {text : List Char}
    (noClosing : '\x7d' ∉ text)
    (opened : Option (List Char)) :
    recognizedParts opened text = (pending opened ++ text).map .sign := by
  induction text generalizing opened with
  | nil => simp [recognizedParts]
  | cons character rest hypothesis =>
      obtain ⟨other, noClosing⟩ := not_or.mp (List.mem_cons.not.mp noClosing)
      simp only [recognizedParts]
      split
      next opening => simp [hypothesis noClosing, pending, opening]
      rcases opened with _ | name
      · simp [hypothesis noClosing, pending]
      · simp [Ne.symm other, hypothesis noClosing, pending]

/-- A name without braces is read to its end. -/
theorem recognizedParts_some_append
    {name : List Char}
    (noOpening : '\x7b' ∉ name)
    (noClosing : '\x7d' ∉ name)
    (front rest : List Char) :
    recognizedParts (some front) (name ++ '\x7d' :: rest) =
      AddressPart.around (front ++ name) ++ recognizedParts none rest := by
  induction name generalizing front with
  | nil => simp [recognizedParts]
  | cons character name hypothesis =>
      obtain ⟨notOpening, noOpening⟩ := not_or.mp (List.mem_cons.not.mp noOpening)
      obtain ⟨notClosing, noClosing⟩ := not_or.mp (List.mem_cons.not.mp noClosing)
      simp [recognizedParts, Ne.symm notOpening, Ne.symm notClosing,
        hypothesis noOpening noClosing]

/-- A placeholder is recognized wherever it stands. -/
theorem recognizedParts_append_placeholder
    {name : List Char}
    (isPlaceholder : IsPlaceholder name)
    (front behind : List Char) :
    recognizedParts none (front ++ '\x7b' :: name ++ '\x7d' :: behind) =
      recognizedParts none front ++ .bracketed name :: recognizedParts none behind := by
  rw [List.append_assoc, List.cons_append, recognizedParts_append_opening,
    recognizedParts_some_append isPlaceholder.noOpening isPlaceholder.noClosing]
  simp [AddressPart.around, isPlaceholder.filled]

/-- What is recognized as a placeholder is one. -/
theorem isPlaceholder_of_mem
    (opened : Option (List Char))
    {text name : List Char}
    (noBraces : ∀ front ∈ opened, '\x7b' ∉ front ∧ '\x7d' ∉ front)
    (member : .bracketed name ∈ recognizedParts opened text) :
    IsPlaceholder name := by
  induction text generalizing opened with
  | nil => simp [recognizedParts] at member
  | cons character rest hypothesis =>
      simp only [recognizedParts] at member
      split at member
      · rcases List.mem_append.mp member with sign | later
        · simp at sign
        · exact hypothesis _ (by simp) later
      next notOpening =>
        rcases opened with _ | front
        · exact hypothesis none (by simp) (by simpa using member)
        obtain ⟨noOpening, noClosing⟩ := noBraces front rfl
        dsimp only at member
        split at member
        · rcases List.mem_append.mp member with own | later
          · unfold AddressPart.around at own
            split at own
            · simp at own
            next filled =>
              obtain rfl : name = front := by simpa using own
              exact ⟨by simpa using filled, noOpening, noClosing⟩
          · exact hypothesis _ (by simp) later
        next notClosing =>
          refine hypothesis _ ?_ member
          simp [noOpening, noClosing, Ne.symm notOpening, Ne.symm notClosing]

/-- What is recognized as a placeholder stands in the address. -/
theorem exists_of_mem_recognizedParts
    {text name : List Char}
    (member : .bracketed name ∈ recognizedParts none text) :
    ∃ front behind, text = front ++ '\x7b' :: name ++ '\x7d' :: behind := by
  obtain ⟨before, after, parts⟩ := List.append_of_mem member
  have written := written_recognizedParts none text
  rw [parts] at written
  refine ⟨before.flatMap AddressPart.written, after.flatMap AddressPart.written, ?_⟩
  simpa [AddressPart.written, pending] using written.symm

/-! ## Addresses as they are filled -/

/-- The parts that are filled make up the address, too. -/
theorem written_addressParts
    (opened : Option (List Char))
    (text : List Char) :
    (addressParts opened text).flatMap AddressPart.written = pending opened ++ text := by
  induction text generalizing opened with
  | nil =>
      cases opened with
      | none => rfl
      | some name => simp only [addressParts, AddressPart.flatMap_written_map_sign]; simp [pending]
  | cons character rest hypothesis =>
      rcases opened with _ | name
      · by_cases opening : character = '\x7b' <;>
          simp [addressParts, opening, AddressPart.written, hypothesis, pending]
      · by_cases closing : character = '\x7d' <;>
          simp [addressParts, closing, AddressPart.written, hypothesis, pending]

/-- No name that is filled has a closing brace. -/
theorem not_mem_of_mem_addressParts
    (opened : Option (List Char))
    {text name : List Char}
    (noClosing : ∀ front ∈ opened, '\x7d' ∉ front)
    (member : .bracketed name ∈ addressParts opened text) :
    '\x7d' ∉ name := by
  induction text generalizing opened with
  | nil => cases opened <;> simp [addressParts] at member
  | cons character rest hypothesis =>
      simp only [addressParts] at member
      rcases opened with _ | front
      · dsimp only at member
        split at member
        · exact hypothesis _ (by simp) member
        · exact hypothesis _ noClosing (by simpa using member)
      · dsimp only at member
        have clear := noClosing front rfl
        split at member
        · rcases List.mem_cons.mp member with same | later
          · cases same
            exact clear
          · exact hypothesis _ (by simp) later
        next notClosing => exact hypothesis _ (by simp [clear, Ne.symm notClosing]) member

/-- The placeholders that can be bound are those of the parts that are filled. -/
theorem recognizedParts_eq_flatMap
    (opened : Option (List Char))
    (noClosing : ∀ front ∈ opened, '\x7d' ∉ front)
    (text : List Char) :
    recognizedParts none (pending opened ++ text) =
      (addressParts opened text).flatMap fun part => recognizedParts none part.written := by
  induction text generalizing opened with
  | nil =>
      rcases opened with _ | name
      · rfl
      · have clear : '\x7d' ∉ pending (some name) := by simpa [pending] using noClosing
        rw [List.append_nil, recognizedParts_of_not_mem clear]
        simp only [addressParts, List.flatMap_map, AddressPart.written,
          recognizedParts_singleton]
        exact List.map_eq_flatMap
  | cons character rest hypothesis =>
      rcases opened with _ | name
      · by_cases opening : character = '\x7b'
        · have begun := hypothesis (some []) (by simp)
          simpa [addressParts, opening, pending] using begun
        · have others := hypothesis none (by simp)
          simp only [pending, List.nil_append] at others
          simp [addressParts, opening, pending, recognizedParts, AddressPart.written, others]
      · have clear := noClosing name rfl
        by_cases closing : character = '\x7d'
        · have others := hypothesis none (by simp)
          simp only [pending, List.nil_append] at others
          rw [closing, recognizedParts_append_closing]
          simp [addressParts, AddressPart.written, pending, others]
        · have longer := hypothesis (some (name ++ [character]))
            (by simp [clear, Ne.symm closing])
          simpa [addressParts, closing, pending] using longer

/-- Every opening brace of a text is followed by a closing one. -/
def ClosesBraces (text : List Char) : Prop :=
  ∀ front behind, text = front ++ '\x7b' :: behind → '\x7d' ∈ behind

theorem closesBraces_append_singleton
    {text : List Char}
    {character : Char} :
    ClosesBraces (text ++ [character]) ↔
      character = '\x7d' ∨ character ≠ '\x7b' ∧ ClosesBraces text := by
  constructor
  · intro closes
    refine or_iff_not_imp_left.mpr fun notClosing => ⟨?_, fun front behind same => ?_⟩
    · rintro rfl
      simpa using closes text [] rfl
    · have later := closes front (behind ++ [character]) (by simp [same])
      simpa [Ne.symm notClosing] using later
  · intro ends front behind same
    rcases List.eq_nil_or_concat behind with rfl | ⟨others, last, rfl⟩
    · obtain ⟨-, last⟩ := List.append_inj' same rfl
      obtain rfl := List.singleton_inj.mp last
      simp at ends
    · rw [List.concat_eq_append] at same ⊢
      rw [← List.cons_append, ← List.append_assoc] at same
      obtain ⟨rfl, sameLast⟩ := List.append_inj' same rfl
      obtain rfl := List.singleton_inj.mp sameLast
      rcases ends with rfl | ⟨-, closes⟩
      · simp
      · exact List.mem_append_left _ (closes front others rfl)

/-- A text whose opening braces are not all closed has a first one that is not. -/
theorem exists_of_not_closesBraces
    {text : List Char}
    (opened : ¬ClosesBraces text) :
    ∃ front name, text = front ++ '\x7b' :: name ∧ ClosesBraces front ∧ '\x7d' ∉ name := by
  induction text using List.reverseRecOn with
  | nil => exact absurd (fun _ _ same => by simp at same) opened
  | append_singleton text character hypothesis =>
      rw [closesBraces_append_singleton, not_or, not_and_or, not_not] at opened
      obtain ⟨notClosing, opened⟩ := opened
      by_cases closes : ClosesBraces text
      · obtain rfl := opened.resolve_right (not_not.mpr closes)
        exact ⟨text, [], rfl, closes, List.not_mem_nil⟩
      · obtain ⟨front, name, rfl, closed, noClosing⟩ := hypothesis closes
        exact ⟨front, name ++ [character], by simp, closed,
          by simp [noClosing, Ne.symm notClosing]⟩

/-- A text that closes its braces is cut apart from what follows. -/
theorem addressParts_append
    (opened : Option (List Char))
    {text : List Char}
    (noClosing : ∀ front ∈ opened, '\x7d' ∉ front)
    (closes : ClosesBraces (pending opened ++ text))
    (rest : List Char) :
    addressParts opened (text ++ rest) = addressParts opened text ++ addressParts none rest := by
  have smaller : ∀ front behind : List Char, ClosesBraces (front ++ behind) →
      ClosesBraces behind := by
    intro front behind closes before after same
    exact closes (front ++ before) after (by rw [same, List.append_assoc])
  induction text generalizing opened with
  | nil =>
      rcases opened with _ | name
      · rfl
      · exact absurd (closes [] name (by simp [pending])) (noClosing name rfl)
  | cons character text hypothesis =>
      rcases opened with _ | name
      · by_cases opening : character = '\x7b'
        · have begun := hypothesis (some []) (by simp)
            (by simpa [pending, opening] using closes)
          simpa [addressParts, opening] using begun
        · have others := hypothesis none (by simp)
            (smaller [character] text (by simpa [pending] using closes))
          simp [addressParts, opening, others]
      · by_cases closing : character = '\x7d'
        · have others := hypothesis none (by simp)
            (smaller (pending (some name) ++ [character]) text
              (by simpa [pending] using closes))
          simp [addressParts, closing, others]
        · have longer := hypothesis (some (name ++ [character]))
            (by simp [noClosing name rfl, Ne.symm closing]) (by simpa [pending] using closes)
          simp [addressParts, closing, longer]

/-- A name without a closing brace is read to its end. -/
theorem addressParts_some_append
    {name : List Char}
    (noClosing : '\x7d' ∉ name)
    (front rest : List Char) :
    addressParts (some front) (name ++ '\x7d' :: rest) =
      .bracketed (front ++ name) :: addressParts none rest := by
  induction name generalizing front with
  | nil => simp [addressParts]
  | cons character name hypothesis =>
      obtain ⟨notClosing, noClosing⟩ := not_or.mp (List.mem_cons.not.mp noClosing)
      simp [addressParts, Ne.symm notClosing, hypothesis noClosing]

end Client
end SchemaCompiler
