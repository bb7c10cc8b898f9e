import Mathlib.Data.List.Nodup
import SchemaCompiler.Order.Table

/-!
# Names of tables and sets

Which names a table has after an entry is set or a list of entries is read. A set lists its
names in increasing order, so it is known by its members.
-/

namespace SchemaCompiler
namespace Order

/-- Without its repetitions, a list has every value once. -/
theorem nodup_eraseDups
    {α : Type}
    [BEq α]
    [LawfulBEq α]
    (list : List α) :
    list.eraseDups.Nodup := by
  match list with
  | [] => exact List.nodup_nil
  | first :: rest =>
      rw [List.eraseDups_cons, List.nodup_cons]
      exact ⟨by simp, nodup_eraseDups _⟩
termination_by list.length
decreasing_by exact Nat.lt_succ_of_le (List.length_filter_le _ rest)

/-- A set lists every name once. -/
theorem NameSet.nodup_names (set : NameSet) : set.names.Nodup :=
  set.increasing.nodup

namespace NameSet

/-- Sets with the same members are equal. -/
theorem ext_mem
    {left right : NameSet}
    (same : ∀ name, name ∈ left ↔ name ∈ right) :
    left = right := by
  have permuted : left.names.Perm right.names :=
    (List.perm_ext_iff_of_nodup left.nodup_names right.nodup_names).mpr same
  have names : left.names = right.names := by
    refine permuted.eq_of_pairwise ?_ left.increasing right.increasing
    intro first second _ _ before after
    exact absurd after (String.lt_asymm before)
  cases left
  cases right
  cases names
  rfl

/-- Lists of the same names make one set. -/
theorem ofList_congr
    {left right : List String}
    (same : ∀ name, name ∈ left ↔ name ∈ right) :
    ofList left = ofList right :=
  ext_mem fun name => by rw [mem_ofList, mem_ofList, same]

end NameSet

/-- A name that no entry has is looked up in vain. -/
theorem lookup_eq_none
    {name : String}
    {entries : List (String × α)}
    (absent : name ∉ entries.map Prod.fst) :
    entries.lookup name = none := by
  rw [List.lookup_eq_none_iff]
  intro entry member
  rw [bne_iff_ne]
  rintro rfl
  exact absent (List.mem_map_of_mem member)

/-- The value of an entry is smaller than the entries. -/
theorem sizeOf_value_lt
    [SizeOf α]
    {entries : List (String × α)}
    {entry : String × α}
    (member : entry ∈ entries) :
    sizeOf entry.2 < sizeOf entries := by
  have smaller := List.sizeOf_lt_of_mem member
  obtain ⟨name, value⟩ := entry
  rw [Prod.mk.sizeOf_spec] at smaller
  change sizeOf value < _
  omega

namespace Table

variable {α : Type}

/-- A table lists every name once. -/
theorem nodup_names (table : Table α) : table.names.Nodup :=
  table.increasing.nodup

/-- A name of a table has a value. -/
theorem exists_get?_of_mem_names
    {table : Table α}
    {name : String}
    (member : name ∈ table.names) :
    ∃ value, table.get? name = some value := by
  obtain ⟨entry, inside, rfl⟩ := List.mem_map.mp member
  refine Option.isSome_iff_exists.mp (List.lookup_isSome_iff.mpr ⟨entry, inside, ?_⟩)
  exact beq_self_eq_true entry.1

/-- A table gives the latest value of a name. -/
theorem get?_set
    (table : Table α)
    (name other : String)
    (value : α) :
    (table.set name value).get? other = if other = name then some value else table.get? other := by
  have inside : ∀ entries : List (String × α), (setEntry name value entries).lookup other =
      if other = name then some value else entries.lookup other := by
    intro entries
    induction entries with
    | nil => by_cases same : other = name <;> grind [setEntry]
    | cons first rest hypothesis =>
        rw [setEntry]
        by_cases same : other = name <;> grind
  exact inside table.entries

/-- The entries of a table are its values by name. -/
theorem get?_eq_some_iff
    {table : Table α}
    {name : String}
    {value : α} :
    table.get? name = some value ↔ (name, value) ∈ table.entries := by
  refine ⟨mem_entries_of_get?, fun member => ?_⟩
  have inside : ∀ entries : List (String × α), (entries.map Prod.fst).Nodup →
      (name, value) ∈ entries → entries.lookup name = some value := by
    intro entries
    induction entries with
    | nil => simp
    | cons first rest hypothesis =>
        intro distinct member
        rw [List.map_cons, List.nodup_cons] at distinct
        rw [List.lookup_cons]
        rcases List.mem_cons.mp member with rfl | later
        · simp
        · have different : (name == first.1) = false := by
            rw [beq_eq_false_iff_ne]
            rintro rfl
            exact distinct.1 (List.mem_map.mpr ⟨_, later, rfl⟩)
          rw [different]
          exact hypothesis distinct.2 later
  exact inside table.entries table.nodup_names member

/-- Tables that give the same values are equal. -/
theorem ext_get?
    {left right : Table α}
    (same : ∀ name, left.get? name = right.get? name) :
    left = right := by
  refine ext_entries ?_
  have nodup : ∀ table : Table α, table.entries.Nodup := fun table =>
    .of_map Prod.fst table.increasing.nodup
  have permuted : left.entries.Perm right.entries := by
    refine (List.perm_ext_iff_of_nodup (nodup left) (nodup right)).mpr ?_
    rintro ⟨name, value⟩
    rw [← get?_eq_some_iff, ← get?_eq_some_iff, same]
  refine permuted.eq_of_pairwise ?_ (List.pairwise_map.mp left.increasing)
    (List.pairwise_map.mp right.increasing)
  intro first second _ _ before after
  exact absurd after (String.lt_asymm before)

@[simp] theorem mem_names_set
    (table : Table α)
    (name other : String)
    (value : α) :
    other ∈ (table.set name value).names ↔ other = name ∨ other ∈ table.names := by
  have keys : (table.set name value).names = insertName name table.names :=
    keys_setEntry name value table.entries
  rw [keys, mem_insertName]

/-- The entries of a table with one name set: the new one and old ones. -/
theorem mem_entries_set
    {table : Table α}
    {name : String}
    {value : α}
    {entry : String × α}
    (member : entry ∈ (table.set name value).entries) :
    entry = (name, value) ∨ entry ∈ table.entries := by
  have inside : ∀ entries : List (String × α), entry ∈ setEntry name value entries →
      entry = (name, value) ∨ entry ∈ entries := by
    intro entries
    induction entries with
    | nil => simp [setEntry]
    | cons first rest hypothesis =>
        rw [setEntry]
        split
        · simp
        · split
          next same =>
            rw [List.mem_cons, List.mem_cons, same]
            exact Or.imp_right .inr
          next =>
            rw [List.mem_cons, List.mem_cons]
            rintro (old | later)
            · exact .inr (.inl old)
            · exact (hypothesis later).imp_right .inr
  exact inside table.entries member

/-- The entries of the table of a list are among those of the list. -/
theorem mem_entries_ofList
    {entries : List (String × α)}
    {entry : String × α}
    (member : entry ∈ (ofList entries).entries) :
    entry ∈ entries := by
  have grown : ∀ table : Table α,
      entry ∈ (entries.foldl (fun table entry => table.set entry.1 entry.2) table).entries →
        entry ∈ entries ∨ entry ∈ table.entries := by
    clear member
    induction entries with
    | nil => exact fun _ old => .inr old
    | cons first rest hypothesis =>
        intro table member
        rw [List.mem_cons]
        rcases hypothesis _ member with later | set
        · exact .inl (.inr later)
        · exact (mem_entries_set set).imp_left .inl
  exact (grown empty member).resolve_right List.not_mem_nil

/-- The names of a list of entries are those of its table. -/
theorem mem_names_ofList
    (entries : List (String × α))
    (name : String) :
    name ∈ (ofList entries).names ↔ name ∈ entries.map Prod.fst := by
  have grown : ∀ (table : Table α),
      name ∈ (entries.foldl (fun table entry => table.set entry.1 entry.2) table).names ↔
        name ∈ entries.map Prod.fst ∨ name ∈ table.names := by
    induction entries with
    | nil => simp
    | cons entry rest hypothesis =>
        intro table
        rw [List.foldl_cons, hypothesis, mem_names_set, List.map_cons, List.mem_cons]
        grind
  rw [ofList, grown]
  simp [empty, names]

/-- The table with those entries only whose values are kept. -/
def keep (keeps : α → Bool) (table : Table α) : Table α :=
  ⟨table.entries.filter fun entry => keeps entry.2,
    table.increasing.sublist (List.filter_sublist.map Prod.fst)⟩

/-- A kept value is a value of the table. -/
theorem get?_keep_eq_some_iff
    {keeps : α → Bool}
    {table : Table α}
    {name : String}
    {value : α} :
    (table.keep keeps).get? name = some value ↔
      table.get? name = some value ∧ keeps value = true := by
  rw [get?_eq_some_iff, get?_eq_some_iff]
  exact List.mem_filter

end Table
end Order
end SchemaCompiler
