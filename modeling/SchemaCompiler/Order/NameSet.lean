/-!
# Sets of names

A `NameSet` lists distinct names in increasing order. Insertion keeps the order,
so two sets with the same members are equal.
-/

namespace SchemaCompiler
namespace Order

/-- The list with one more name at its place in the order. -/
def insertName (name : String) : List String → List String
  | [] => [name]
  | first :: rest =>
      if name < first then name :: first :: rest
      else if name = first then first :: rest
      else first :: insertName name rest

@[simp] theorem insertName_nil (name : String) : insertName name [] = [name] := rfl

@[simp] theorem mem_insertName
    (name other : String)
    (names : List String) :
    other ∈ insertName name names ↔ other = name ∨ other ∈ names := by
  induction names with
  | nil => simp
  | cons first rest hypothesis =>
      rw [insertName]
      split
      · simp
      · split
        next equal => simp [equal]
        next => simp [hypothesis, or_left_comm]

/-- Insertion keeps a list increasing. -/
theorem pairwise_insertName
    (name : String)
    {names : List String}
    (increasing : names.Pairwise (· < ·)) :
    (insertName name names).Pairwise (· < ·) := by
  induction names with
  | nil => simp
  | cons first rest hypothesis =>
      obtain ⟨before, restIncreasing⟩ := List.pairwise_cons.mp increasing
      rw [insertName]
      split
      next earlier =>
        refine List.pairwise_cons.mpr ⟨?_, increasing⟩
        intro other member
        rcases List.mem_cons.mp member with rfl | later
        · exact earlier
        · exact String.lt_trans earlier (before other later)
      next notEarlier =>
        split
        next => exact increasing
        next different =>
          refine List.pairwise_cons.mpr ⟨?_, hypothesis restIncreasing⟩
          intro other member
          rcases (mem_insertName name other rest).mp member with rfl | later
          · exact Std.lt_of_le_of_ne (String.not_lt.mp notEarlier) (Ne.symm different)
          · exact before other later

/-- Distinct names in increasing order. -/
structure NameSet where
  names : List String
  increasing : names.Pairwise (· < ·)
deriving DecidableEq

namespace NameSet

instance : Repr NameSet := ⟨fun set precision => reprPrec set.names precision⟩

/-- The set without names. -/
def empty : NameSet := ⟨[], .nil⟩

instance : Inhabited NameSet := ⟨empty⟩

instance : EmptyCollection NameSet := ⟨empty⟩

/-- The set with one more name. -/
def insert (set : NameSet) (name : String) : NameSet :=
  ⟨insertName name set.names, pairwise_insertName name set.increasing⟩

instance : Membership String NameSet := ⟨fun set name => name ∈ set.names⟩

instance (name : String) (set : NameSet) : Decidable (name ∈ set) :=
  inferInstanceAs (Decidable (name ∈ set.names))

/-- The name belongs to the set. -/
def contains (set : NameSet) (name : String) : Bool := set.names.contains name

/-- The set with the names of a list. -/
def insertAll (set : NameSet) (names : List String) : NameSet := names.foldl insert set

/-- The names of a list, in order and each once. -/
def ofList (names : List String) : NameSet := empty.insertAll names

/-- The names of either set. -/
def union (left right : NameSet) : NameSet := left.insertAll right.names

/-- Number of names. -/
def size (set : NameSet) : Nat := set.names.length

/-- There is no name in the set. -/
def isEmpty (set : NameSet) : Bool := set.names.isEmpty

@[simp] theorem mem_mk
    (name : String)
    (names : List String)
    (increasing : names.Pairwise (· < ·)) :
    name ∈ NameSet.mk names increasing ↔ name ∈ names := Iff.rfl

@[simp] theorem mem_insert
    (set : NameSet)
    (name other : String) :
    other ∈ set.insert name ↔ other = name ∨ other ∈ set :=
  mem_insertName name other set.names

@[simp] theorem not_mem_empty (name : String) : ¬name ∈ empty := List.not_mem_nil

@[simp] theorem mem_insertAll
    (names : List String)
    (set : NameSet)
    (other : String) :
    other ∈ set.insertAll names ↔ other ∈ names ∨ other ∈ set := by
  induction names generalizing set with
  | nil => simp [insertAll]
  | cons first rest hypothesis =>
      have step : set.insertAll (first :: rest) = (set.insert first).insertAll rest := rfl
      simp [step, hypothesis, or_left_comm, or_assoc]

@[simp] theorem mem_ofList
    (names : List String)
    (other : String) :
    other ∈ ofList names ↔ other ∈ names := by
  simp [ofList]

end NameSet
end Order
end SchemaCompiler
