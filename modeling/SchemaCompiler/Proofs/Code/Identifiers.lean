import SchemaCompiler.Code.Token

/-!
# Identifiers in code

Tokens nest in groups. What is asked of every identifier in them is asked of the parts that they
are put together from; the only numbers with identifiers are those that have no digits.
-/

namespace SchemaCompiler
namespace Code
namespace Token

open SchemaCompiler.Number (Binary64)

mutual

/-- Identifiers in a token. -/
def names : Token → List String
  | .identifier text => [text]
  | .literal _ => []
  | .sign _ _ => []
  | .group _ tokens => namesOf tokens

/-- Identifiers in tokens. -/
def namesOf : List Token → List String
  | [] => []
  | first :: rest => names first ++ namesOf rest

end

@[simp] theorem names_identifier (text : String) : (identifier text).names = [text] := by
  rw [names]

@[simp] theorem names_literal (text : String) : (literal text).names = [] := by
  rw [names]

@[simp] theorem names_string (text : String) : (string text).names = [] := by
  rw [string, names]

@[simp] theorem names_alone (character : Char) : (alone character).names = [] := by
  rw [alone, names]

@[simp] theorem names_parenthesized
    (tokens : List Token) :
    (parenthesized tokens).names = namesOf tokens := by
  rw [parenthesized, names]

@[simp] theorem names_bracketed
    (tokens : List Token) :
    (bracketed tokens).names = namesOf tokens := by
  rw [bracketed, names]

@[simp] theorem namesOf_nil : namesOf [] = [] := by
  rw [namesOf]

@[simp] theorem namesOf_cons
    (first : Token)
    (rest : List Token) :
    namesOf (first :: rest) = first.names ++ namesOf rest := by
  rw [namesOf]

@[simp] theorem namesOf_append (left right : List Token) :
    namesOf (left ++ right) = namesOf left ++ namesOf right := by
  induction left with
  | nil => rw [namesOf, List.nil_append, List.nil_append]
  | cons token rest hypothesis =>
      rw [List.cons_append, namesOf, namesOf, hypothesis, List.append_assoc]

@[simp] theorem namesOf_path (names : List String) : namesOf (path names) = names := by
  induction names with
  | nil => rw [path, namesOf]
  | cons first rest hypothesis =>
      cases rest with
      | nil => simp [path]
      | cons second rest =>
          have split : path (first :: second :: rest) =
              [identifier first] ++ pathSign ++ path (second :: rest) := rfl
          have signs : namesOf pathSign = [] := by
            simp [pathSign, Token.names]
          rw [split, namesOf_append, namesOf_append, hypothesis, signs, namesOf_cons,
            names_identifier, namesOf_nil, List.append_nil, List.append_nil, List.singleton_append]

@[simp] theorem namesOf_call
    (name : String)
    (arguments : List Token) :
    namesOf (call name arguments) = name :: namesOf arguments := by
  simp [call]

@[simp] theorem namesOf_integer (value : Int) : namesOf (integer value) = [] := by
  unfold integer
  split <;> simp

/-- Names of the numbers that have no digits. -/
def strangeNumbers : List String := ["NAN", "INFINITY", "NEG_INFINITY"]

theorem namesOf_float_of_isFinite
    {value : Binary64}
    (finite : value.isFinite = true) :
    namesOf (float value) = [] := by
  unfold float
  rw [if_pos finite]
  dsimp only
  split <;> simp

/-- A number that is not finite is a member of its type, by one of the names. -/
theorem exists_namesOf_float
    {value : Binary64}
    (strange : value.isFinite = false) :
    ∃ name ∈ strangeNumbers, namesOf (float value) = ["f64", name] := by
  unfold float
  rw [strange, if_neg (by decide)]
  split
  · exact ⟨"NAN", by decide, namesOf_path _⟩
  · split
    · exact ⟨"NEG_INFINITY", by decide, namesOf_path _⟩
    · exact ⟨"INFINITY", by decide, namesOf_path _⟩

/-- Every identifier in the tokens has the property. -/
def NamesAll (Good : String → Prop) (tokens : List Token) : Prop :=
  ∀ name ∈ namesOf tokens, Good name

variable {Good : String → Prop}

@[simp] theorem namesAll_append
    (left right : List Token) :
    NamesAll Good (left ++ right) ↔ NamesAll Good left ∧ NamesAll Good right := by
  rw [NamesAll, namesOf_append, List.forall_mem_append]
  rfl

theorem namesAll_of_namesOf_eq
    {tokens : List Token}
    {names : List String}
    (same : namesOf tokens = names)
    (good : ∀ name ∈ names, Good name) :
    NamesAll Good tokens := by
  rw [NamesAll, same]
  exact good

@[simp] theorem namesAll_nil : NamesAll Good [] :=
  namesAll_of_namesOf_eq namesOf_nil (List.forall_mem_nil _)

theorem namesAll_call
    {name : String}
    {arguments : List Token}
    (own : Good name)
    (inside : NamesAll Good arguments) :
    NamesAll Good (call name arguments) :=
  namesAll_of_namesOf_eq (namesOf_call name arguments) (List.forall_mem_cons.mpr ⟨own, inside⟩)

theorem namesAll_separated
    {parts : List (List Token)}
    (each : ∀ part ∈ parts, NamesAll Good part) :
    NamesAll Good (separated parts) := by
  induction parts with
  | nil => exact namesAll_nil
  | cons first rest hypothesis =>
      obtain ⟨own, others⟩ := List.forall_mem_cons.mp each
      cases rest with
      | nil => exact own
      | cons second rest =>
          refine (namesAll_append _ _).mpr ⟨own, ?_⟩
          refine namesAll_of_namesOf_eq ?_ (hypothesis others)
          rw [namesOf_cons, names_alone, List.nil_append]

/-- A floating point number is written in digits exactly if it is finite. -/
theorem namesAll_float_iff
    {value : Binary64} :
    NamesAll (· ∉ strangeNumbers) (float value) ↔ value.isFinite = true := by
  cases finite : value.isFinite with
  | true =>
      rw [iff_true_right rfl]
      exact namesAll_of_namesOf_eq (namesOf_float_of_isFinite finite) (List.forall_mem_nil _)
  | false =>
      obtain ⟨name, strange, same⟩ := exists_namesOf_float finite
      rw [iff_false_right (by decide), NamesAll, same]
      exact fun familiar => familiar name (List.mem_cons_of_mem _ List.mem_cons_self) strange

end Token
end Code
end SchemaCompiler
