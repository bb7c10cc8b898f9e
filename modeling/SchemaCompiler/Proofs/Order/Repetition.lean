import SchemaCompiler.Proofs.Order.Overlay

/-!
# Overlays applied again

Overlays settle if applying them all once more leaves the result as it is. A single overlay
need not: of two that state the same thing the later one wins, and the earlier one alone would
undo that. Overlays settle if they compose and each of them, merged with itself, is the same;
and lists of overlays settle if the overlays of every name do.
-/

namespace SchemaCompiler
namespace Order
namespace Overlay

variable {α : Type} {merge : α → α → Option α}

/-- A value with overlays one after the other. The first overlay stands for a missing value. -/
def mergeAll (merge : α → α → Option α) : Option α → List α → Option (Option α)
  | base, [] => some base
  | base, overlay :: rest =>
      (mergeOption merge base (some overlay)).bind fun next => mergeAll merge next rest

/-- The overlays leave their result as it is when they are applied once more. -/
def Settles (merge : α → α → Option α) (base : Option α) (overlays : List α) : Prop :=
  ∀ result, mergeAll merge base overlays = some result →
    mergeAll merge result overlays = some result

@[simp] theorem mergeAll_nil (base : Option α) : mergeAll merge base [] = some base := by
  cases base <;> rfl

theorem mergeAll_cons
    (base : Option α)
    (overlay : α)
    (rest : List α) :
    mergeAll merge base (overlay :: rest) =
      (mergeOption merge base (some overlay)).bind fun next => mergeAll merge next rest := by
  cases base <;> rfl

@[simp] theorem mergeAll_none_cons
    (overlay : α)
    (rest : List α) :
    mergeAll merge none (overlay :: rest) = mergeAll merge (some overlay) rest := rfl

theorem mergeAll_some_cons
    (value overlay : α)
    (rest : List α) :
    mergeAll merge (some value) (overlay :: rest) =
      (merge value overlay).bind fun next => mergeAll merge (some next) rest := by
  rw [mergeAll_cons, mergeOption, Option.bind_map]
  rfl

/-- A value with overlays is a value. -/
theorem exists_of_mergeAll_some
    {value : α}
    {overlays : List α}
    {result : Option α}
    (merged : mergeAll merge (some value) overlays = some result) :
    ∃ last, result = some last := by
  induction overlays generalizing value with
  | nil =>
      rw [mergeAll_nil, Option.some.injEq] at merged
      exact ⟨value, merged.symm⟩
  | cons overlay rest hypothesis =>
      rw [mergeAll_some_cons] at merged
      obtain ⟨next, -, others⟩ := Option.bind_eq_some_iff.mp merged
      exact hypothesis others

/-- Optional overlays one after the other: those that are missing do nothing. -/
theorem mergeAll_toList_append
    (base overlay : Option α)
    (rest : List α) :
    mergeAll merge base (overlay.toList ++ rest) =
      (mergeOption merge base overlay).bind fun next => mergeAll merge next rest := by
  cases overlay with
  | none => cases base <;> rfl
  | some value => exact mergeAll_cons base value rest

/-! ## Overlays that never fail -/

/-- Overlays one after the other do nothing when they are applied once more, if they can be
put together first and do nothing to themselves. -/
theorem foldl_foldl_self
    {overlay : α → α → α}
    (assoc : ∀ base first second,
      overlay (overlay base first) second = overlay base (overlay first second))
    (self : ∀ value, overlay value value = value)
    (base : α)
    (overlays : List α) :
    overlays.foldl overlay (overlays.foldl overlay base) = overlays.foldl overlay base := by
  cases overlays with
  | nil => rfl
  | cons first rest =>
      have : Std.Associative overlay := ⟨assoc⟩
      rw [List.foldl_cons, List.foldl_cons, List.foldl_assoc, List.foldl_assoc, assoc, self]

/-! ## Values that compose -/

/-- Values that compose, whose merges are such values again, and that merged with themselves
are the same. -/
structure Repeatable (merge : α → α → Option α) (property : α → Prop) : Prop where
  composes : ∀ {left right}, property left → property right → Composes merge left right
  closed : ∀ {left right result}, property left → property right →
    merge left right = some result → property result
  self : ∀ {value}, property value → merge value value = some value

section Repeatable

variable {property : α → Prop}

/-- Optional values are repeatable if the values are. -/
theorem Repeatable.option
    (repeatable : Repeatable merge property) :
    Repeatable (mergeOption merge) fun value? => ∀ value ∈ value?, property value where
  composes left right := composes_mergeOption fun first isFirst second isSecond =>
    repeatable.composes (left first isFirst) (right second isSecond)
  closed left right := forall_mergeOption left right fun _ _ value stated existing =>
    repeatable.closed existing (right value stated)
  self := by
    intro value? each
    cases value? with
    | none => rfl
    | some value => rw [mergeOption, repeatable.self (each value rfl), Option.map_some]

/-- What repeatable values make of each other is one again. -/
theorem Repeatable.of_mergeAll
    (repeatable : Repeatable merge property)
    {base result : Option α}
    {overlays : List α}
    (ofBase : ∀ value ∈ base, property value)
    (each : ∀ overlay ∈ overlays, property overlay)
    (merged : mergeAll merge base overlays = some result) :
    ∀ value ∈ result, property value := by
  induction overlays generalizing base with
  | nil =>
      rw [mergeAll_nil, Option.some.injEq] at merged
      rwa [← merged]
  | cons first rest hypothesis =>
      rw [List.forall_mem_cons] at each
      rw [mergeAll_cons] at merged
      obtain ⟨next, inner, others⟩ := Option.bind_eq_some_iff.mp merged
      apply hypothesis _ each.2 others
      exact repeatable.option.closed ofBase (by simpa using each.1) inner

/-- Overlays one after the other do what they make of each other. -/
theorem Repeatable.mergeAll_cons_eq_bind
    (repeatable : Repeatable merge property)
    {first : α}
    {rest : List α}
    (each : ∀ overlay ∈ first :: rest, property overlay)
    (base : Option α) :
    mergeAll merge base (first :: rest) =
      (mergeAll merge (some first) rest).bind (mergeOption merge base) := by
  induction rest generalizing first with
  | nil => simp [mergeAll_cons]
  | cons second rest hypothesis =>
      rw [List.forall_mem_cons, List.forall_mem_cons] at each
      obtain ⟨ofFirst, ofSecond, ofRest⟩ := each
      have both : Composes (mergeOption merge) (some first) (some second) :=
        repeatable.option.composes (by simpa using ofFirst) (by simpa using ofSecond)
      calc mergeAll merge base (first :: second :: rest)
          = ((mergeOption merge base (some first)).bind fun next =>
              mergeOption merge next (some second)).bind fun next => mergeAll merge next rest := by
            rw [Option.bind_assoc]
            exact mergeAll_cons ..
        _ = (mergeOption merge (some first) (some second)).bind fun overlay =>
              (mergeOption merge base overlay).bind fun next => mergeAll merge next rest := by
            rw [both, Option.bind_assoc]
        _ = (mergeOption merge (some first) (some second)).bind fun overlay =>
              (mergeAll merge overlay rest).bind (mergeOption merge base) := by
            refine Option.bind_congr fun overlay merged => ?_
            obtain ⟨value, inner, rfl⟩ := Option.map_eq_some_iff.mp merged
            rw [← mergeAll_cons]
            apply hypothesis
            exact List.forall_mem_cons.mpr ⟨repeatable.closed ofFirst ofSecond inner, ofRest⟩
        _ = (mergeAll merge (some first) (second :: rest)).bind (mergeOption merge base) := by
            rw [mergeAll_cons, Option.bind_assoc]

/-- Repeatable values settle on every base. -/
theorem Repeatable.settles
    (repeatable : Repeatable merge property)
    {overlays : List α}
    (each : ∀ overlay ∈ overlays, property overlay)
    (base : Option α) :
    Settles merge base overlays := by
  intro result merged
  cases overlays with
  | nil => rw [mergeAll_nil]
  | cons first rest =>
      rw [repeatable.mergeAll_cons_eq_bind each] at merged ⊢
      obtain ⟨whole, all, last⟩ := Option.bind_eq_some_iff.mp merged
      rw [List.forall_mem_cons] at each
      have ofWhole := repeatable.of_mergeAll (by simpa using each.1) each.2 all
      have again := repeatable.option.composes ofWhole ofWhole base
      rw [last, repeatable.option.self ofWhole, Option.bind_some, Option.bind_some, last] at again
      rw [all, Option.bind_some, again]

/-- Overlays that settle on the first of them settle where there is no value. -/
theorem Settles.none
    {first : α}
    {rest : List α}
    (self : merge first first = some first)
    (settles : Settles merge (some first) (first :: rest)) :
    Settles merge none (first :: rest) := by
  intro result merged
  rw [mergeAll_none_cons] at merged
  apply settles
  rw [mergeAll_some_cons, self, Option.bind_some, merged]

end Repeatable

/-! ## Lists and tables -/

section Lists

variable {name : α → String}

/-- The first value of a list takes the overlays of its name, and the rest takes the others. -/
theorem mergeList_cons_left_iff
    (keeps : KeepsNames name merge)
    {first : α}
    {rest overlays result : List α} :
    mergeList name merge (first :: rest) overlays = some result ↔
      ∃ value others, name value = name first ∧
        mergeAll merge (some first) (overlays.filter (name · = name first)) = some (some value) ∧
        mergeList name merge rest (overlays.filter (name · ≠ name first)) = some others ∧
        value :: others = result := by
  induction overlays generalizing first rest with
  | nil =>
      simp only [mergeList, List.filter_nil, mergeAll_nil, Option.some.injEq]
      constructor
      · intro same
        exact ⟨first, rest, rfl, rfl, rfl, same⟩
      · rintro ⟨value, others, -, rfl, rfl, same⟩
        exact same
  | cons overlay overlays hypothesis =>
      rw [mergeList, mergeNamed]
      by_cases same : name first = name overlay
      · rw [if_pos same, Option.bind_map, List.filter_cons_of_pos (by simp [same]),
          List.filter_cons_of_neg (by simp [same]), mergeAll_some_cons]
        cases inner : merge first overlay with
        | none => simp
        | some next =>
            rw [← keeps same inner, Option.bind_some, Option.bind_some]
            exact hypothesis
      · have different : name overlay ≠ name first := Ne.symm same
        rw [if_neg same, Option.bind_map, List.filter_cons_of_neg (by simp [different]),
          List.filter_cons_of_pos (by simp [different]), mergeList]
        cases mergeNamed name merge overlay rest with
        | none => simp
        | some next => exact hypothesis

/-- Of the overlays without those of one name, those of that name are none. -/
theorem filter_filter_ne
    (overlays : List α)
    (other key : String) :
    (overlays.filter (name · ≠ other)).filter (name · = key) =
      if key = other then [] else overlays.filter (name · = key) := by
  rw [List.filter_filter]
  split
  next same =>
    rw [List.filter_eq_nil_iff]
    simp [same]
  next different =>
    apply List.filter_congr
    intro overlay _
    by_cases met : name overlay = key
    · simp [met, different]
    · simp [met]

/-- Lists of overlays settle on no values if those of every name do. -/
theorem mergeList_nil_settles
    (keeps : KeepsNames name merge)
    {overlays result : List α}
    (settles : ∀ key, Settles merge none (overlays.filter (name · = key)))
    (merged : mergeList name merge [] overlays = some result) :
    mergeList name merge result overlays = some result := by
  -- on the number of overlays: the first one takes all of its name with it
  induction size : overlays.length using Nat.strongRecOn generalizing overlays result with
  | ind size hypothesis =>
      cases overlays with
      | nil =>
          cases merged
          rfl
      | cons first rest =>
          obtain ⟨value, others, named, all, remaining, rfl⟩ :=
            (mergeList_cons_left_iff keeps).mp merged
          have ofFirst := settles (name first)
          rw [List.filter_cons_of_pos (by simp)] at ofFirst
          apply (mergeList_cons_left_iff keeps).mpr
          rw [named, List.filter_cons_of_pos (by simp), List.filter_cons_of_neg (by simp)]
          refine ⟨value, others, named, ofFirst _ all, hypothesis _ ?_ ?_ remaining rfl, rfl⟩
          · rw [← size, List.length_cons]
            exact Nat.lt_succ_of_le (List.length_filter_le ..)
          · intro key
            rw [filter_filter_ne]
            split
            next => exact fun _ _ => mergeAll_nil _
            next different =>
              have ofKey := settles key
              rwa [List.filter_cons_of_neg (by simpa using Ne.symm different)] at ofKey

/-- Lists of overlays settle if those of every name do. -/
theorem mergeList_settles
    (keeps : KeepsNames name merge)
    {base overlays result : List α}
    (settles : ∀ key, Settles merge (base.find? (name · = key)) (overlays.filter (name · = key)))
    (merged : mergeList name merge base overlays = some result) :
    mergeList name merge result overlays = some result := by
  induction base generalizing overlays result with
  | nil => exact mergeList_nil_settles keeps settles merged
  | cons first rest hypothesis =>
      obtain ⟨value, others, named, all, remaining, rfl⟩ :=
        (mergeList_cons_left_iff keeps).mp merged
      have ofFirst := settles (name first)
      rw [List.find?_cons_of_pos (by simp)] at ofFirst
      apply (mergeList_cons_left_iff keeps).mpr
      rw [named]
      refine ⟨value, others, named, ofFirst _ all, hypothesis ?_ remaining, rfl⟩
      intro key
      rw [filter_filter_ne]
      split
      next => exact fun _ _ => mergeAll_nil _
      next different =>
        have ofKey := settles key
        rwa [List.find?_cons_of_neg (by simpa using Ne.symm different)] at ofKey

/-- A value of distinctly named ones that leaves itself alone leaves their list alone. -/
theorem mergeNamed_of_mem
    {overlay : α}
    {base : List α}
    (distinct : (base.map name).Nodup)
    (self : merge overlay overlay = some overlay)
    (present : overlay ∈ base) :
    mergeNamed name merge overlay base = some base := by
  induction base with
  | nil => simp at present
  | cons first rest hypothesis =>
      rw [List.map_cons, List.nodup_cons] at distinct
      rw [mergeNamed]
      rcases List.mem_cons.mp present with rfl | later
      · rw [if_pos rfl, self, Option.map_some]
      · have different : name first ≠ name overlay := by
          intro same
          apply distinct.1
          rw [same]
          exact List.mem_map_of_mem later
        rw [if_neg different, hypothesis distinct.2 later, Option.map_some]

/-- Distinctly named values that leave themselves alone leave their list alone. -/
theorem mergeList_self
    {values : List α}
    (distinct : (values.map name).Nodup)
    (self : ∀ value ∈ values, merge value value = some value) :
    mergeList name merge values values = some values := by
  suffices ∀ overlays, (∀ overlay ∈ overlays, overlay ∈ values) →
      mergeList name merge values overlays = some values from this values fun _ => id
  intro overlays present
  induction overlays with
  | nil => rfl
  | cons overlay rest hypothesis =>
      rw [List.forall_mem_cons] at present
      rw [mergeList, mergeNamed_of_mem distinct (self overlay present.1) present.1,
        Option.bind_some, hypothesis present.2]

/-- Overlays of two lists are those of the first and then those of the second. -/
theorem mergeList_append
    (base first second : List α) :
    mergeList name merge base (first ++ second) =
      (mergeList name merge base first).bind fun next => mergeList name merge next second := by
  induction first generalizing base with
  | nil => simp [mergeList]
  | cons overlay rest hypothesis =>
      rw [List.cons_append, mergeList, mergeList, Option.bind_assoc]
      exact Option.bind_congr fun next _ => hypothesis next

/-- A table settles under an overlay if the values of every name do. -/
theorem mergeTables_settles
    {base overlay result : Table α}
    (settles : ∀ name, ∀ value ∈ overlay.get? name, Settles merge (base.get? name) [value])
    (merged : mergeTables merge base overlay = some result) :
    mergeTables merge result overlay = some result := by
  rw [mergeTables_eq_some_iff] at merged ⊢
  intro name
  cases stated : overlay.get? name with
  | none => cases result.get? name <;> rfl
  | some value =>
      have once := merged name
      rw [stated] at once
      have again := settles name value stated (result.get? name)
      simp only [mergeAll_cons, mergeAll_nil, Option.bind_fun_some] at again
      exact again once

end Lists

end Overlay
end Order
end SchemaCompiler
