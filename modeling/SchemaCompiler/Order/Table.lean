import SchemaCompiler.Order.NameSet

/-!
# Tables by name

A `Table` gives a value to each of finitely many names and lists them in
increasing order of the names. Setting a name again replaces its value.
-/

namespace SchemaCompiler
namespace Order

/-- The entries with the value of one name set. -/
def setEntry (name : String) (value : α) : List (String × α) → List (String × α)
  | [] => [(name, value)]
  | (first, old) :: rest =>
      if name < first then (name, value) :: (first, old) :: rest
      else if name = first then (first, value) :: rest
      else (first, old) :: setEntry name value rest

@[simp] theorem keys_setEntry
    (name : String)
    (value : α)
    (entries : List (String × α)) :
    (setEntry name value entries).map Prod.fst = insertName name (entries.map Prod.fst) := by
  induction entries with
  | nil => rfl
  | cons entry rest hypothesis =>
      rw [setEntry, List.map_cons, insertName]
      split
      · rfl
      · split
        · rfl
        · rw [List.map_cons, hypothesis]

/-- Without entries, there are no names to order. -/
theorem increasing_nil (α : Type) :
    (([] : List (String × α)).map Prod.fst).Pairwise (· < ·) := .nil

/-- Values by name, in increasing order of the names. -/
structure Table (α : Type) where
  entries : List (String × α)
  increasing : (entries.map Prod.fst).Pairwise (· < ·)

namespace Table

instance [Repr α] : Repr (Table α) := ⟨fun table precision => reprPrec table.entries precision⟩

/-- The table without entries. -/
def empty : Table α := ⟨[], increasing_nil α⟩

instance : Inhabited (Table α) := ⟨empty⟩

/-- The table with the value of one name set. -/
def set (table : Table α) (name : String) (value : α) : Table α :=
  ⟨setEntry name value table.entries, by
    rw [keys_setEntry]
    exact pairwise_insertName name table.increasing⟩

/-- The value of a name. -/
def get? (table : Table α) (name : String) : Option α := table.entries.lookup name

/-- The names that have a value. -/
def names (table : Table α) : List String := table.entries.map Prod.fst

/-- Number of entries. -/
def size (table : Table α) : Nat := table.entries.length

/-- The name has a value. -/
def contains (table : Table α) (name : String) : Bool := (table.get? name).isSome

/-- The entries of a list, the last one of each name. -/
def ofList (entries : List (String × α)) : Table α :=
  entries.foldl (fun table entry => table.set entry.1 entry.2) empty

/-- The table with another value under every name. -/
def mapValues (table : Table α) (change : String → α → β) : Table β :=
  ⟨table.entries.map fun entry => (entry.1, change entry.1 entry.2), by
    rw [List.map_map]
    exact table.increasing⟩

/-- The value of a name stands in one of the entries. -/
theorem mem_entries_of_get?
    {table : Table α}
    {name : String}
    {value : α}
    (found : table.get? name = some value) :
    (name, value) ∈ table.entries := by
  obtain ⟨before, after, same, _⟩ := List.lookup_eq_some_iff.mp found
  rw [same]
  simp

/-- A name that is looked up with success is one of the names. -/
theorem mem_names_of_get?
    {table : Table α}
    {name : String}
    {value : α}
    (found : table.get? name = some value) :
    name ∈ table.names :=
  List.mem_map_of_mem (mem_entries_of_get? found)

/-- Two tables with the same entries are equal. -/
theorem ext_entries
    {left right : Table α}
    (same : left.entries = right.entries) :
    left = right := by
  cases left
  cases right
  subst same
  rfl

end Table
end Order
end SchemaCompiler
