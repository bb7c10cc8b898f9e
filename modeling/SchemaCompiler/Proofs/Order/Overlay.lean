import SchemaCompiler.Proofs.Order.Table

/-!
# Overlays of options, tables and lists

An overlay of values by name is merged into a base: what both have is merged, what only
one of them has is taken as it is. The values stand in an option, in a table or in a
list in which they have names of their own and in which the first of a name counts.

Properties that single merges keep are kept by all three, and where single merges
compose, so do these: two overlays one after the other do what the merge of both does.
-/

namespace SchemaCompiler
namespace Order
namespace Overlay

variable {α : Type}

/-- An optional value with an optional overlay. -/
def mergeOption (merge : α → α → Option α) : Option α → Option α → Option (Option α)
  | some base, some overlay => (merge base overlay).map some
  | none, some overlay => some (some overlay)
  | base, none => some base

/-- The entries of a base with those of an overlay. -/
def mergeTable (merge : α → α → Option α) (base : Table α) :
    List (String × α) → Option (Table α)
  | [] => some base
  | (key, overlay) :: rest =>
      match base.get? key with
      | some existing =>
          (merge existing overlay).bind fun merged => mergeTable merge (base.set key merged) rest
      | none => mergeTable merge (base.set key overlay) rest

/-- The list with an overlay of its first value of that name, or with the overlay at its
end. -/
def mergeNamed (name : α → String) (merge : α → α → Option α) (overlay : α) :
    List α → Option (List α)
  | [] => some [overlay]
  | first :: rest =>
      if name first = name overlay then (merge first overlay).map (· :: rest)
      else (mergeNamed name merge overlay rest).map (first :: ·)

/-- The values of a base with those of an overlay. -/
def mergeList (name : α → String) (merge : α → α → Option α) (base : List α) :
    List α → Option (List α)
  | [] => some base
  | overlay :: rest =>
      (mergeNamed name merge overlay base).bind fun next => mergeList name merge next rest

/-! ## Properties of all values -/

section Properties

variable {merge : α → α → Option α} {property : α → Prop}

theorem forall_mergeOption
    {base overlay result : Option α}
    (ofBase : ∀ value ∈ base, property value)
    (ofOverlay : ∀ value ∈ overlay, property value)
    (closed : ∀ existing merged, ∀ value ∈ overlay, property existing →
      merge existing value = some merged → property merged)
    (merged : mergeOption merge base overlay = some result) :
    ∀ value ∈ result, property value := by
  cases overlay with
  | none =>
      cases base <;> cases merged <;> exact ofBase
  | some stated =>
      cases base with
      | none =>
          cases merged
          exact ofOverlay
      | some existing =>
          obtain ⟨value, inner, rfl⟩ := Option.map_eq_some_iff.mp merged
          intro other member
          cases member
          exact closed existing value stated rfl (ofBase existing rfl) inner

theorem forall_mergeTable
    {base result : Table α}
    {overlay : List (String × α)}
    (ofBase : ∀ entry ∈ base.entries, property entry.2)
    (ofOverlay : ∀ entry ∈ overlay, property entry.2)
    (closed : ∀ existing merged, ∀ entry ∈ overlay, property existing →
      merge existing entry.2 = some merged → property merged)
    (merged : mergeTable merge base overlay = some result) :
    ∀ entry ∈ result.entries, property entry.2 := by
  induction overlay generalizing base with
  | nil =>
      cases merged
      exact ofBase
  | cons stated rest hypothesis =>
      rw [List.forall_mem_cons] at ofOverlay
      have afterSet : ∀ value, property value →
          ∀ entry ∈ (base.set stated.1 value).entries, property entry.2 := by
        intro value given entry member
        rcases Table.mem_entries_set member with rfl | old
        · exact given
        · exact ofBase entry old
      have closedRest : ∀ existing merged, ∀ entry ∈ rest, property existing →
          merge existing entry.2 = some merged → property merged :=
        fun existing value entry member => closed existing value entry (.tail _ member)
      rw [mergeTable] at merged
      split at merged
      next existing found =>
        obtain ⟨value, inner, others⟩ := Option.bind_eq_some_iff.mp merged
        refine hypothesis (afterSet value ?_) ofOverlay.2 closedRest others
        exact closed existing value stated (.head _)
          (ofBase _ (Table.mem_entries_of_get? found)) inner
      next => exact hypothesis (afterSet stated.2 ofOverlay.1) ofOverlay.2 closedRest merged

theorem forall_mergeNamed
    {name : α → String}
    {overlay : α}
    {base result : List α}
    (ofBase : ∀ value ∈ base, property value)
    (ofOverlay : property overlay)
    (closed : ∀ existing merged, property existing →
      merge existing overlay = some merged → property merged)
    (merged : mergeNamed name merge overlay base = some result) :
    ∀ value ∈ result, property value := by
  induction base generalizing result with
  | nil =>
      cases merged
      simpa using ofOverlay
  | cons first rest hypothesis =>
      rw [List.forall_mem_cons] at ofBase
      rw [mergeNamed] at merged
      split at merged
      · obtain ⟨value, inner, rfl⟩ := Option.map_eq_some_iff.mp merged
        exact List.forall_mem_cons.mpr ⟨closed first value ofBase.1 inner, ofBase.2⟩
      · obtain ⟨others, inner, rfl⟩ := Option.map_eq_some_iff.mp merged
        exact List.forall_mem_cons.mpr ⟨ofBase.1, hypothesis ofBase.2 inner⟩

theorem forall_mergeList
    {name : α → String}
    {overlay base result : List α}
    (ofBase : ∀ value ∈ base, property value)
    (ofOverlay : ∀ value ∈ overlay, property value)
    (closed : ∀ existing merged, ∀ value ∈ overlay, property existing →
      merge existing value = some merged → property merged)
    (merged : mergeList name merge base overlay = some result) :
    ∀ value ∈ result, property value := by
  induction overlay generalizing base with
  | nil =>
      cases merged
      exact ofBase
  | cons stated rest hypothesis =>
      rw [List.forall_mem_cons] at ofOverlay
      obtain ⟨next, first, others⟩ := Option.bind_eq_some_iff.mp merged
      refine hypothesis ?_ ofOverlay.2 ?_ others
      · exact forall_mergeNamed ofBase ofOverlay.1
          (fun existing value => closed existing value stated (.head _)) first
      · exact fun existing value other member => closed existing value other (.tail _ member)

end Properties

/-! ## Composition -/

/-- Merging one value after the other does what merging both at once does. -/
def Composes (merge : α → α → Option α) (first second : α) : Prop :=
  ∀ base, ((merge base first).bind fun value => merge value second) =
    (merge first second).bind (merge base)

/-- What the two merges one after the other give is what both at once give, and the other
way round. -/
theorem composes_iff
    {merge : α → α → Option α}
    {first second : α} :
    Composes merge first second ↔ ∀ base result,
      (∃ value, merge base first = some value ∧ merge value second = some result) ↔
        ∃ overlay, merge first second = some overlay ∧ merge base overlay = some result := by
  refine forall_congr' fun base => ?_
  rw [Option.ext_iff]
  simp only [Option.bind_eq_some_iff]

section Composition

variable {merge : α → α → Option α}

theorem composes_mergeOption
    {first second : Option α}
    (composes : ∀ left ∈ first, ∀ right ∈ second, Composes merge left right) :
    Composes (mergeOption merge) first second := by
  intro base
  cases second with
  | none => cases first <;> cases base <;> simp [mergeOption]
  | some right =>
      cases first with
      | none => cases base <;> simp [mergeOption]
      | some left =>
          cases base with
          | none => cases inner : merge left right <;> simp [mergeOption, inner]
          | some existing =>
              have same := composes left rfl right rfl existing
              simp only [mergeOption, Option.bind_map]
              calc ((merge existing left).bind fun value => (merge value right).map some)
                  = ((merge existing left).bind fun value => merge value right).map some := by
                    rw [Option.map_bind]
                    rfl
                _ = ((merge left right).bind (merge existing)).map some := by rw [same]
                _ = (merge left right).bind fun value => (merge existing value).map some := by
                    rw [Option.map_bind]
                    rfl

/-! ### Tables -/

/-- A table with an overlay gives every name the value of one with the value of the
other. -/
theorem mergeTable_spec
    {base result : Table α}
    {overlay : List (String × α)}
    (distinct : (overlay.map Prod.fst).Nodup)
    (merged : mergeTable merge base overlay = some result)
    (name : String) :
    mergeOption merge (base.get? name) (overlay.lookup name) = some (result.get? name) := by
  induction overlay generalizing base with
  | nil =>
      cases merged
      cases result.get? name <;> rfl
  | cons stated rest hypothesis =>
      obtain ⟨key, value⟩ := stated
      obtain ⟨fresh, restDistinct⟩ := List.nodup_cons.mp distinct
      have unmet := lookup_eq_none fresh
      -- what is set for the key is what the whole merge gives it
      have step : ∀ set, mergeOption merge (base.get? key) (some value) = some (some set) →
          mergeTable merge (base.set key set) rest = some result →
          mergeOption merge (base.get? name) (((key, value) :: rest).lookup name) =
            some (result.get? name) := by
        intro set here others
        have later := hypothesis restDistinct others
        rw [Table.get?_set] at later
        by_cases same : name = key
        · subst same
          rw [if_pos rfl, unmet] at later
          rw [List.lookup_cons, beq_self_eq_true]
          exact here.trans later
        · rw [if_neg same] at later
          rw [List.lookup_cons, beq_eq_false_iff_ne.mpr same]
          exact later
      rw [mergeTable] at merged
      split at merged
      next existing found =>
        obtain ⟨set, inner, others⟩ := Option.bind_eq_some_iff.mp merged
        exact step set (by rw [found, mergeOption, inner]; rfl) others
      next absent => exact step value (by rw [absent]; rfl) merged

/-- A merge of tables succeeds if that of the values of every name does. -/
theorem exists_mergeTable
    {overlay : List (String × α)}
    (distinct : (overlay.map Prod.fst).Nodup)
    {base : Table α}
    (each : ∀ name, ∃ value,
      mergeOption merge (base.get? name) (overlay.lookup name) = some value) :
    ∃ result, mergeTable merge base overlay = some result := by
  induction overlay generalizing base with
  | nil => exact ⟨base, rfl⟩
  | cons stated rest hypothesis =>
      obtain ⟨key, value⟩ := stated
      obtain ⟨fresh, restDistinct⟩ := List.nodup_cons.mp distinct
      have unmet := lookup_eq_none fresh
      have others : ∀ set, ∃ result, mergeTable merge (base.set key set) rest = some result := by
        intro set
        refine hypothesis restDistinct fun name => ?_
        rw [Table.get?_set]
        by_cases same : name = key
        · rw [if_pos same, same, unmet]
          exact ⟨some set, rfl⟩
        · obtain ⟨given, merged⟩ := each name
          rw [List.lookup_cons, beq_eq_false_iff_ne.mpr same] at merged
          rw [if_neg same]
          exact ⟨given, merged⟩
      rw [mergeTable]
      split
      next existing found =>
        obtain ⟨given, merged⟩ := each key
        rw [found, List.lookup_cons, beq_self_eq_true] at merged
        obtain ⟨set, inner, -⟩ := Option.map_eq_some_iff.mp merged
        rw [inner]
        exact others set
      next => exact others value

/-- A merge of two tables. -/
def mergeTables (merge : α → α → Option α) (base overlay : Table α) : Option (Table α) :=
  mergeTable merge base overlay.entries

/-- Merges of tables are merges of the values of every name. -/
theorem mergeTables_eq_some_iff
    {base overlay result : Table α} :
    mergeTables merge base overlay = some result ↔
      ∀ name, mergeOption merge (base.get? name) (overlay.get? name) = some (result.get? name) := by
  refine ⟨fun merged => mergeTable_spec overlay.nodup_names merged, fun each => ?_⟩
  obtain ⟨other, merged⟩ := exists_mergeTable overlay.nodup_names fun name => ⟨_, each name⟩
  have same : other = result := Table.ext_get? fun name =>
    Option.some.inj ((mergeTable_spec overlay.nodup_names merged name).symm.trans (each name))
  exact same ▸ merged

/-- A merge of tables that succeeds for every name has any property that the merges of
the values have. -/
theorem exists_mergeTables
    {base overlay : Table α}
    {property : String → Option α → Prop}
    (each : ∀ name, ∃ value,
      mergeOption merge (base.get? name) (overlay.get? name) = some value ∧ property name value) :
    ∃ result, mergeTables merge base overlay = some result ∧
      ∀ name, property name (result.get? name) := by
  obtain ⟨result, merged⟩ := exists_mergeTable overlay.nodup_names fun name =>
    (each name).imp fun value both => both.1
  refine ⟨result, merged, fun name => ?_⟩
  obtain ⟨value, inner, held⟩ := each name
  have same := inner.symm.trans (mergeTables_eq_some_iff.mp merged name)
  rwa [Option.some.inj same] at held

theorem composes_mergeTables
    {first second : Table α}
    (composes : ∀ name, ∀ left ∈ first.get? name, ∀ right ∈ second.get? name,
      Composes merge left right) :
    Composes (mergeTables merge) first second := by
  intro base
  have each : ∀ name, Composes (mergeOption merge) (first.get? name) (second.get? name) :=
    fun name => composes_mergeOption (composes name)
  refine Option.ext fun result => ?_
  simp only [Option.bind_eq_some_iff, mergeTables_eq_some_iff]
  constructor
  · rintro ⟨middle, before, after⟩
    have both : ∀ name, ∃ value,
        mergeOption merge (first.get? name) (second.get? name) = some value ∧
          mergeOption merge (base.get? name) value = some (result.get? name) := by
      intro name
      refine Option.bind_eq_some_iff.mp ((each name _).symm.trans ?_)
      rw [before name]
      exact after name
    obtain ⟨overlay, merged, outer⟩ := exists_mergeTables both
    exact ⟨overlay, mergeTables_eq_some_iff.mp merged, outer⟩
  · rintro ⟨overlay, inner, outer⟩
    have both : ∀ name, ∃ value,
        mergeOption merge (base.get? name) (first.get? name) = some value ∧
          mergeOption merge value (second.get? name) = some (result.get? name) := by
      intro name
      refine Option.bind_eq_some_iff.mp ((each name _).trans ?_)
      rw [inner name]
      exact outer name
    obtain ⟨middle, merged, after⟩ := exists_mergeTables both
    exact ⟨middle, mergeTables_eq_some_iff.mp merged, after⟩

/-! ### Lists -/

section Lists

variable {name : α → String}

/-- A merge keeps the name of two values that share it. -/
def KeepsNames (name : α → String) (merge : α → α → Option α) : Prop :=
  ∀ {base overlay result}, name base = name overlay → merge base overlay = some result →
    name result = name base

/-- An overlay adds its name at the end, unless it is there. -/
theorem map_name_mergeNamed
    (keeps : KeepsNames name merge)
    {overlay : α}
    {base result : List α}
    (merged : mergeNamed name merge overlay base = some result) :
    result.map name = base.map name ++ [name overlay].filter (· ∉ base.map name) := by
  induction base generalizing result with
  | nil =>
      cases merged
      simp
  | cons first rest hypothesis =>
      rw [mergeNamed] at merged
      split at merged
      next same =>
        obtain ⟨value, inner, rfl⟩ := Option.map_eq_some_iff.mp merged
        simp [keeps same inner, same]
      next different =>
        obtain ⟨others, inner, rfl⟩ := Option.map_eq_some_iff.mp merged
        rw [List.map_cons, hypothesis inner]
        have different : ¬name overlay = name first := fun same => different same.symm
        by_cases present : name overlay ∈ rest.map name <;> simp_all

/-- An overlay keeps names distinct. -/
theorem nodup_mergeNamed
    (keeps : KeepsNames name merge)
    {overlay : α}
    {base result : List α}
    (distinct : (base.map name).Nodup)
    (merged : mergeNamed name merge overlay base = some result) :
    (result.map name).Nodup := by
  rw [map_name_mergeNamed keeps merged, List.nodup_append]
  refine ⟨distinct, List.filter_sublist.nodup (List.nodup_singleton _), ?_⟩
  rintro old present new added rfl
  exact of_decide_eq_true (List.mem_filter.mp added).2 present

/-- The name of an overlay is there afterwards, and all names that were there before. -/
theorem mem_names_mergeNamed
    (keeps : KeepsNames name merge)
    {overlay : α}
    {base result : List α}
    (merged : mergeNamed name merge overlay base = some result)
    (other : String) :
    other ∈ result.map name ↔ other ∈ base.map name ∨ other = name overlay := by
  rw [map_name_mergeNamed keeps merged, List.mem_append, List.mem_filter, List.mem_singleton,
    decide_eq_true_iff]
  refine ⟨Or.imp_right And.left, fun either => ?_⟩
  by_cases present : other ∈ base.map name
  · exact .inl present
  · have new := either.resolve_left present
    exact .inr ⟨new, new ▸ present⟩

/-- The names of a list of overlays are there afterwards. -/
theorem mem_names_mergeList
    (keeps : KeepsNames name merge)
    {overlay base result : List α}
    (merged : mergeList name merge base overlay = some result)
    (other : String) :
    other ∈ result.map name ↔ other ∈ base.map name ∨ other ∈ overlay.map name := by
  induction overlay generalizing base with
  | nil =>
      cases merged
      simp
  | cons stated rest hypothesis =>
      obtain ⟨next, first, others⟩ := Option.bind_eq_some_iff.mp merged
      rw [hypothesis others, mem_names_mergeNamed keeps first, List.map_cons, List.mem_cons,
        or_assoc]

/-- Values of another name than the overlay are those of the base. -/
theorem mem_of_mem_mergeNamed
    (keeps : KeepsNames name merge)
    {overlay value : α}
    {base result : List α}
    (merged : mergeNamed name merge overlay base = some result)
    (member : value ∈ result)
    (different : name value ≠ name overlay) :
    value ∈ base := by
  induction base generalizing result with
  | nil =>
      cases merged
      exact absurd (congrArg name (List.mem_singleton.mp member)) different
  | cons first rest hypothesis =>
      rw [mergeNamed] at merged
      split at merged
      next same =>
        obtain ⟨met, inner, rfl⟩ := Option.map_eq_some_iff.mp merged
        rcases List.mem_cons.mp member with rfl | old
        · exact absurd ((keeps same inner).trans same) different
        · exact .tail _ old
      next =>
        obtain ⟨others, inner, rfl⟩ := Option.map_eq_some_iff.mp merged
        rcases List.mem_cons.mp member with rfl | later
        · exact .head _
        · exact .tail _ (hypothesis inner later)

/-- What is met by neither of two overlays stays in front of what they do. -/
theorem mergeNamed_mergeNamed_behind
    {existing first second : α}
    (unlikeFirst : name existing ≠ name first)
    (unlikeSecond : name existing ≠ name second)
    (rest : List α) :
    ((mergeNamed name merge first (existing :: rest)).bind (mergeNamed name merge second)) =
      ((mergeNamed name merge first rest).bind (mergeNamed name merge second)).map
        (existing :: ·) := by
  rw [mergeNamed, if_neg unlikeFirst, Option.bind_map, Option.map_bind]
  refine Option.bind_congr fun next _ => ?_
  rw [Function.comp_apply, mergeNamed, if_neg unlikeSecond]
  rfl

/-- Values of one name after each other do what the merge of both does. -/
theorem mergeNamed_mergeNamed
    (keeps : KeepsNames name merge)
    {first second : α}
    (same : name first = name second)
    (composes : Composes merge first second)
    (base : List α) :
    ((mergeNamed name merge first base).bind fun next => mergeNamed name merge second next) =
      (merge first second).bind fun overlay => mergeNamed name merge overlay base := by
  have names : ∀ overlay, merge first second = some overlay → name overlay = name first :=
    fun overlay inner => keeps same inner
  induction base with
  | nil =>
      simp only [mergeNamed, Option.bind_some, if_pos same]
      cases merge first second <;> rfl
  | cons existing rest hypothesis =>
      by_cases met : name existing = name first
      · have left : ∀ value, merge existing first = some value → name value = name second :=
          fun value inner => (keeps met inner).trans (met.trans same)
        calc ((mergeNamed name merge first (existing :: rest)).bind (mergeNamed name merge second))
            = (merge existing first).bind fun value => (merge value second).map (· :: rest) := by
              rw [mergeNamed, if_pos met, Option.bind_map]
              refine Option.bind_congr fun value inner => ?_
              rw [Function.comp_apply, mergeNamed, if_pos (left value inner)]
          _ = ((merge first second).bind (merge existing)).map (· :: rest) := by
              rw [← composes existing, Option.map_bind]
              rfl
          _ = (merge first second).bind fun overlay =>
                mergeNamed name merge overlay (existing :: rest) := by
              rw [Option.map_bind]
              refine Option.bind_congr fun overlay inner => ?_
              rw [Function.comp_apply, mergeNamed, if_pos (met.trans (names overlay inner).symm)]
      · calc ((mergeNamed name merge first (existing :: rest)).bind (mergeNamed name merge second))
            = ((mergeNamed name merge first rest).bind (mergeNamed name merge second)).map
                (existing :: ·) := mergeNamed_mergeNamed_behind met (same ▸ met) rest
          _ = ((merge first second).bind fun overlay => mergeNamed name merge overlay rest).map
                (existing :: ·) := by rw [hypothesis]
          _ = (merge first second).bind fun overlay =>
                mergeNamed name merge overlay (existing :: rest) := by
              rw [Option.map_bind]
              refine Option.bind_congr fun overlay inner => ?_
              rw [mergeNamed, if_neg (names overlay inner ▸ met)]
              rfl

/-- An overlay of a name that is there can be merged before or after one of another name. -/
theorem mergeNamed_comm
    (keeps : KeepsNames name merge)
    {first second : α}
    (different : name first ≠ name second)
    {base : List α}
    (present : name second ∈ base.map name) :
    ((mergeNamed name merge first base).bind (mergeNamed name merge second)) =
      (mergeNamed name merge second base).bind (mergeNamed name merge first) := by
  induction base with
  | nil => simp at present
  | cons existing rest hypothesis =>
      -- a value that is met by one of the overlays is passed over by the other
      have apart : ∀ {met other : α}, name existing = name met → name met ≠ name other →
          ((mergeNamed name merge met (existing :: rest)).bind (mergeNamed name merge other)) =
            (mergeNamed name merge other (existing :: rest)).bind (mergeNamed name merge met) := by
        intro met other same unlike
        have passed : ¬name existing = name other := fun equal => unlike (same.symm.trans equal)
        calc ((mergeNamed name merge met (existing :: rest)).bind (mergeNamed name merge other))
            = (merge existing met).bind fun value =>
                (mergeNamed name merge other rest).bind fun next => some (value :: next) := by
              rw [mergeNamed, if_pos same, Option.bind_map]
              refine Option.bind_congr fun value inner => ?_
              rw [Function.comp_apply, mergeNamed, if_neg (keeps same inner ▸ passed),
                Option.map_eq_bind]
              rfl
          _ = (mergeNamed name merge other rest).bind fun next =>
                (merge existing met).bind fun value => some (value :: next) := Option.bind_comm ..
          _ = (mergeNamed name merge other (existing :: rest)).bind
                (mergeNamed name merge met) := by
              rw [mergeNamed, if_neg passed, Option.bind_map]
              refine Option.bind_congr fun next _ => ?_
              rw [Function.comp_apply, mergeNamed, if_pos same, Option.map_eq_bind]
              rfl
      by_cases metFirst : name existing = name first
      · exact apart metFirst different
      · by_cases metSecond : name existing = name second
        · exact (apart metSecond different.symm).symm
        · have later : name second ∈ rest.map name :=
            (List.mem_cons.mp present).resolve_left fun same => metSecond same.symm
          rw [mergeNamed_mergeNamed_behind metFirst metSecond,
            mergeNamed_mergeNamed_behind metSecond metFirst, hypothesis later]

/-- So it can be merged before or after a list of other names. -/
theorem mergeList_mergeNamed_comm
    (keeps : KeepsNames name merge)
    {overlay : α}
    {others base : List α}
    (fresh : name overlay ∉ others.map name)
    (present : name overlay ∈ base.map name) :
    ((mergeList name merge base others).bind (mergeNamed name merge overlay)) =
      (mergeNamed name merge overlay base).bind fun next => mergeList name merge next others := by
  induction others generalizing base with
  | nil => simp [mergeList]
  | cons other rest hypothesis =>
      rw [List.map_cons, List.mem_cons, not_or] at fresh
      calc ((mergeList name merge base (other :: rest)).bind (mergeNamed name merge overlay))
          = (mergeNamed name merge other base).bind fun next =>
              (mergeList name merge next rest).bind (mergeNamed name merge overlay) := by
            rw [mergeList, Option.bind_assoc]
        _ = (mergeNamed name merge other base).bind fun next =>
              (mergeNamed name merge overlay next).bind fun value =>
                mergeList name merge value rest := by
            refine Option.bind_congr fun next inner => hypothesis fresh.2 ?_
            exact (mem_names_mergeNamed keeps inner _).mpr (.inl present)
        _ = (mergeNamed name merge overlay base).bind fun next =>
              mergeList name merge next (other :: rest) := by
            rw [← Option.bind_assoc, mergeNamed_comm keeps (Ne.symm fresh.1) present,
              Option.bind_assoc]
            rfl

/-- An overlay after a list of them can be merged into the list first. -/
theorem mergeList_mergeNamed
    (keeps : KeepsNames name merge)
    {overlay : α}
    {others : List α}
    (distinct : (others.map name).Nodup)
    (composes : ∀ other ∈ others, name other = name overlay → Composes merge other overlay)
    (base : List α) :
    ((mergeList name merge base others).bind (mergeNamed name merge overlay)) =
      (mergeNamed name merge overlay others).bind (mergeList name merge base) := by
  induction others generalizing base with
  | nil => simp [mergeList, mergeNamed]
  | cons other rest hypothesis =>
      rw [List.forall_mem_cons] at composes
      obtain ⟨fresh, restDistinct⟩ := List.nodup_cons.mp distinct
      by_cases same : name other = name overlay
      · calc ((mergeList name merge base (other :: rest)).bind (mergeNamed name merge overlay))
            = (mergeNamed name merge other base).bind fun next =>
                (mergeList name merge next rest).bind (mergeNamed name merge overlay) := by
              rw [mergeList, Option.bind_assoc]
          _ = (mergeNamed name merge other base).bind fun next =>
                (mergeNamed name merge overlay next).bind fun value =>
                  mergeList name merge value rest := by
              refine Option.bind_congr fun next inner =>
                mergeList_mergeNamed_comm keeps (same ▸ fresh) ?_
              exact (mem_names_mergeNamed keeps inner _).mpr (.inr same.symm)
          _ = ((merge other overlay).bind fun both => mergeNamed name merge both base).bind
                fun next => mergeList name merge next rest := by
              rw [← mergeNamed_mergeNamed keeps same (composes.1 same), Option.bind_assoc]
          _ = (mergeNamed name merge overlay (other :: rest)).bind (mergeList name merge base) := by
              rw [mergeNamed, if_pos same, Option.bind_map, Option.bind_assoc]
              rfl
      · calc ((mergeList name merge base (other :: rest)).bind (mergeNamed name merge overlay))
            = (mergeNamed name merge other base).bind fun next =>
                (mergeList name merge next rest).bind (mergeNamed name merge overlay) := by
              rw [mergeList, Option.bind_assoc]
          _ = (mergeNamed name merge other base).bind fun next =>
                (mergeNamed name merge overlay rest).bind (mergeList name merge next) :=
              Option.bind_congr fun next _ => hypothesis restDistinct composes.2 next
          _ = (mergeNamed name merge overlay rest).bind fun next =>
                (mergeNamed name merge other base).bind fun value =>
                  mergeList name merge value next := Option.bind_comm ..
          _ = (mergeNamed name merge overlay (other :: rest)).bind (mergeList name merge base) := by
              rw [mergeNamed, if_neg same, Option.bind_map]
              rfl

theorem composes_mergeList
    (keeps : KeepsNames name merge)
    {first second : List α}
    (firstDistinct : (first.map name).Nodup)
    (secondDistinct : (second.map name).Nodup)
    (composes : ∀ left ∈ first, ∀ right ∈ second, name left = name right →
      Composes merge left right) :
    Composes (mergeList name merge) first second := by
  intro base
  -- on the second list: its head moves into the first list, whose names stay distinct
  induction second generalizing first with
  | nil => simp [mergeList]
  | cons overlay rest hypothesis =>
      obtain ⟨fresh, restDistinct⟩ := List.nodup_cons.mp secondDistinct
      have composesHead : ∀ left ∈ first, name left = name overlay → Composes merge left overlay :=
        fun left member => composes left member overlay (.head _)
      calc ((mergeList name merge base first).bind fun value =>
              mergeList name merge value (overlay :: rest))
          = ((mergeList name merge base first).bind (mergeNamed name merge overlay)).bind
              fun value => mergeList name merge value rest := by
            rw [Option.bind_assoc]
            rfl
        _ = (mergeNamed name merge overlay first).bind fun next =>
              (mergeList name merge base next).bind fun value =>
                mergeList name merge value rest := by
            rw [mergeList_mergeNamed keeps firstDistinct composesHead, Option.bind_assoc]
        _ = (mergeNamed name merge overlay first).bind fun next =>
              (mergeList name merge next rest).bind (mergeList name merge base) := by
            refine Option.bind_congr fun next inner =>
              hypothesis (nodup_mergeNamed keeps firstDistinct inner) restDistinct ?_
            intro left member right later same
            have different : name left ≠ name overlay := fun equal =>
              fresh (equal ▸ same ▸ List.mem_map_of_mem later)
            exact composes left (mem_of_mem_mergeNamed keeps inner member different) right
              (.tail _ later) same
        _ = (mergeList name merge first (overlay :: rest)).bind (mergeList name merge base) := by
            rw [mergeList, Option.bind_assoc]

end Lists

end Composition

end Overlay
end Order
end SchemaCompiler
