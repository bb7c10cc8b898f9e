import SchemaCompiler.Proofs.Order.Table
import SchemaCompiler.Schema.Merge

/-!
# Edits to values

A patch keeps the values of a base that it does not remove, and puts those that it adds
behind them unless they are there already. So it decides alone which values are present
afterwards, and patching once more changes nothing unless the patch removes what it adds.
-/

namespace SchemaCompiler
namespace Schema

namespace ValuesPatch

variable {patch : ValuesPatch} {values : List String}

/-- The values that a patch leaves of a base. -/
def kept (patch : ValuesPatch) (values : List String) : List String :=
  values.filter (· ∉ patch.remove)

/-- The values that a patch adds to a base, each once. -/
def fresh (patch : ValuesPatch) (values : List String) : List String :=
  (patch.add.filter (· ∉ patch.kept values)).eraseDups

/-- Adding one value after the other puts the missing ones at the end, in the order in which
they first occur. -/
theorem foldl_add (added start : List String) :
    added.foldl (fun values value => if values.contains value then values else values ++ [value])
        start =
      start ++ (added.filter (· ∉ start)).eraseDups := by
  induction added generalizing start with
  | nil => simp
  | cons first rest hypothesis =>
      rw [List.foldl_cons, hypothesis]
      by_cases present : first ∈ start
      · simp [present]
      · -- what comes later is compared with a list that has grown by the first value
        have later : rest.filter (· ∉ start ++ [first]) =
            (rest.filter (· ∉ start)).filter fun value => !value == first := by
          rw [List.filter_filter]
          apply List.filter_congr
          intro value _
          simp [and_comm, beq_eq_decide]
        simp only [List.contains_iff_mem, present, if_false, later, List.filter_cons,
          not_false_eq_true, decide_true, if_true, List.eraseDups_cons, List.append_assoc,
          List.singleton_append]

/-- A patch leaves the values it does not remove, followed by those it adds. -/
theorem apply_eq (patch : ValuesPatch) (values : List String) :
    patch.apply values = patch.kept values ++ patch.fresh values := by
  have same : (values.filter fun value => !patch.remove.contains value) = patch.kept values := by
    apply List.filter_congr
    intro value _
    simp
  rw [apply, same, foldl_add, fresh]

/-- A value is present after a patch that adds it, and otherwise if it was there and is not
removed. -/
theorem mem_apply_iff
    {value : String} :
    value ∈ patch.apply values ↔ value ∈ patch.add ∨ value ∈ values ∧ value ∉ patch.remove := by
  rw [apply_eq, List.mem_append, fresh, List.mem_eraseDups, List.mem_filter, decide_eq_true_iff]
  have stays : value ∈ patch.kept values ↔ value ∈ values ∧ value ∉ patch.remove := by
    simp [kept]
  rw [← stays]
  by_cases present : value ∈ patch.kept values <;> simp [present]

/-- Values that differ still differ after a patch. -/
theorem nodup_apply
    (distinct : values.Nodup) :
    (patch.apply values).Nodup := by
  rw [apply_eq, List.nodup_append]
  refine ⟨distinct.filter _, Order.nodup_eraseDups _, ?_⟩
  rintro old stays new added rfl
  rw [fresh, List.mem_eraseDups, List.mem_filter, decide_eq_true_iff] at added
  exact added.2 stays

/-- A patch that removes none of the present values and adds nothing else leaves the list as
it is. -/
theorem apply_eq_self
    (added : ∀ value ∈ patch.add, value ∈ values)
    (removed : ∀ value ∈ patch.remove, value ∉ values) :
    patch.apply values = values := by
  have all : patch.kept values = values := by
    rw [kept, List.filter_eq_self]
    intro value present
    exact decide_eq_true fun removes => removed value removes present
  have none : patch.fresh values = [] := by
    have nothing : patch.add.filter (· ∉ patch.kept values) = [] := by
      rw [all, List.filter_eq_nil_iff]
      intro value stated
      simpa using added value stated
    rw [fresh, nothing, List.eraseDups_nil]
  rw [apply_eq, all, none, List.append_nil]

/-- A patch without edits leaves the list as it is. -/
theorem apply_of_isEmpty
    (empty : patch.isEmpty) :
    patch.apply values = values := by
  obtain ⟨noneAdded, noneRemoved⟩ : patch.add = [] ∧ patch.remove = [] := by
    simpa [isEmpty] using empty
  apply apply_eq_self
  · simp [noneAdded]
  · simp [noneRemoved]

/-- A patch applied once more leaves the same values present. -/
theorem mem_apply_apply_iff
    {value : String} :
    value ∈ patch.apply (patch.apply values) ↔ value ∈ patch.apply values := by
  simp only [mem_apply_iff]
  tauto

/-- A patch that removes nothing that it adds changes nothing when it is applied once more. -/
theorem apply_apply_of_disjoint
    (disjoint : patch.add.Disjoint patch.remove) :
    patch.apply (patch.apply values) = patch.apply values := by
  apply apply_eq_self
  · intro value added
    exact mem_apply_iff.mpr (.inl added)
  · intro value removed present
    rcases mem_apply_iff.mp present with added | ⟨-, stays⟩
    · exact disjoint added removed
    · exact stays removed

/-- What a patch makes of the values of a base. -/
structure Edits (patch : ValuesPatch) (values result : List String) : Prop where
  /-- Kept values come first, in their order and as often as before, then the added ones. -/
  listed : result = patch.kept values ++ patch.fresh values
  /-- Everything that the patch adds is present. -/
  added : ∀ value ∈ patch.add, value ∈ result
  /-- Nothing else is present but what was there and is not removed. -/
  present_iff : ∀ value, value ∈ result ↔
    value ∈ patch.add ∨ value ∈ values ∧ value ∉ patch.remove
  /-- Values that differed still do. -/
  distinct : values.Nodup → result.Nodup

theorem edits_apply (patch : ValuesPatch) (values : List String) :
    patch.Edits values (patch.apply values) where
  listed := apply_eq patch values
  added := fun _ stated => mem_apply_iff.mpr (.inl stated)
  present_iff := fun _ => mem_apply_iff
  distinct := nodup_apply

end ValuesPatch

namespace StringFacets

variable {base overlay : StringFacets}

/-- Values of an overlay replace those of the base. -/
theorem values_merge_of_stated
    (stated : overlay.values ≠ []) :
    (base.merge overlay).values = overlay.values := by
  change mergeValues base overlay = overlay.values
  rw [mergeValues, if_pos (by simpa using stated)]

/-- An overlay without values patches those of the base. -/
theorem values_merge_of_patched
    {patch : ValuesPatch}
    (unstated : overlay.values = [])
    (patched : overlay.valuesPatch = some patch) :
    (base.merge overlay).values = patch.apply base.values := by
  change mergeValues base overlay = patch.apply base.values
  rw [mergeValues, if_neg (by simp [unstated]), patched]

/-- Merged strings have the values of the overlay if it has any, whatever its patch says, and
otherwise those that its patch makes of the base. Merging the overlay once more leaves the same
values present, and the same list if the patch removes nothing that it adds. -/
theorem merge_edits_values
    (path : FieldPath)
    (declaration overlayDeclaration : Declaration)
    (base overlay : StringFacets) :
    Node.mergeAt path (.scalar declaration (.string base))
        (.scalar overlayDeclaration (.string overlay)) =
      .ok (.scalar (declaration.merge overlayDeclaration) (.string (base.merge overlay))) ∧
    (overlay.values ≠ [] → (base.merge overlay).values = overlay.values) ∧
    ∀ patch, overlay.values = [] → overlay.valuesPatch = some patch →
      patch.Edits base.values (base.merge overlay).values ∧
      (∀ value, value ∈ ((base.merge overlay).merge overlay).values ↔
        value ∈ (base.merge overlay).values) ∧
      (patch.add.Disjoint patch.remove →
        ((base.merge overlay).merge overlay).values = (base.merge overlay).values) := by
  refine ⟨by rw [Node.mergeAt]; rfl, values_merge_of_stated, ?_⟩
  intro patch unstated patched
  have merged : ∀ base : StringFacets, (base.merge overlay).values = patch.apply base.values :=
    fun _ => values_merge_of_patched unstated patched
  rw [merged (base.merge overlay), merged base]
  refine ⟨ValuesPatch.edits_apply patch base.values, ?_, ?_⟩
  · intro value
    exact ValuesPatch.mem_apply_apply_iff
  · intro disjoint
    exact ValuesPatch.apply_apply_of_disjoint disjoint

/-- A string with the modes of a site. -/
def modeFacets : StringFacets := { values := ["auto", "manual", "off"] }

/-- Edits that add a mode twice and one that is there, and remove one that is there. -/
def modePatch : ValuesPatch := { add := ["eco", "off", "eco"], remove := ["manual"] }

theorem merge_edits_values_modes :
    (modeFacets.merge { valuesPatch := some modePatch }).values = ["auto", "off", "eco"] ∧
      modeFacets.values.Nodup ∧
      (modeFacets.merge { valuesPatch := some modePatch }).values.Nodup ∧
      modePatch.add.Disjoint modePatch.remove ∧
      ((modeFacets.merge { valuesPatch := some modePatch }).merge
        { valuesPatch := some modePatch }).values = ["auto", "off", "eco"] ∧
      (modeFacets.merge { values := ["fast"], valuesPatch := some modePatch }).values =
        ["fast"] := by
  obtain ⟨edits, -, again⟩ :=
    (merge_edits_values .root {} {} modeFacets { valuesPatch := some modePatch }).2.2
      modePatch rfl rfl
  have listed : modePatch.kept modeFacets.values ++ modePatch.fresh modeFacets.values =
      ["auto", "off", "eco"] := by decide
  have disjoint : modePatch.add.Disjoint modePatch.remove := by simp [modePatch]
  have replaced :=
    (merge_edits_values .root {} {} modeFacets
      { values := ["fast"], valuesPatch := some modePatch }).2.1 nofun
  refine ⟨edits.listed.trans listed, by decide, edits.distinct (by decide), disjoint, ?_, replaced⟩
  rw [again disjoint, edits.listed, listed]

end StringFacets

end Schema
end SchemaCompiler
