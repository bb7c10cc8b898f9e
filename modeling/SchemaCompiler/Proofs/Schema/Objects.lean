import SchemaCompiler.Proofs.Schema.Soundness

/-!
# Building objects

Children make up an object exactly if their names differ, and groups can be added exactly
if all of their members are children. What is built so is sound.
-/

namespace SchemaCompiler
namespace Schema

open SchemaCompiler.Outcome (bind_eq_ok_iff)

namespace Object

/-- A child can be inserted exactly if no other has its name. -/
theorem insert_eq_ok_iff
    {object result : Object}
    {path : FieldPath}
    {child : Node} :
    object.insert path child = .ok result ↔
      child.name ∉ object.names ∧
        { object with children := object.children ++ [child] } = result := by
  have present : object.contains child.name = true ↔ child.name ∈ object.names :=
    Node.hasChild_iff ..
  unfold insert
  split <;> simp_all

/-- Children can be inserted one after another exactly if all names differ. -/
theorem insertAll_eq_ok_iff
    {object result : Object}
    {path : FieldPath}
    {children : List Node}
    (distinct : (object.children.map Node.name).Nodup) :
    object.insertAll path children = .ok result ↔
      ((object.children ++ children).map Node.name).Nodup ∧
        { object with children := object.children ++ children } = result := by
  induction children generalizing object with
  | nil => simp_all [insertAll]
  | cons child rest hypothesis =>
      rw [insertAll, bind_eq_ok_iff]
      have appended : object.children ++ child :: rest = object.children ++ [child] ++ rest := by
        simp
      constructor
      · rintro ⟨next, first, others⟩
        obtain ⟨fresh, rfl⟩ := insert_eq_ok_iff.mp first
        have nextDistinct : ((object.children ++ [child]).map Node.name).Nodup := by
          rw [List.map_append, List.map_singleton]
          exact distinct.append (List.nodup_singleton _) (List.disjoint_singleton.mpr fresh)
        rw [appended]
        exact (hypothesis nextDistinct).mp others
      · rw [appended]
        rintro ⟨allDistinct, same⟩
        have nextDistinct : ((object.children ++ [child]).map Node.name).Nodup := by
          rw [List.map_append] at allDistinct
          exact (List.nodup_append.mp allDistinct).1
        refine ⟨_, insert_eq_ok_iff.mpr ⟨?_, rfl⟩,
          (hypothesis nextDistinct).mpr ⟨allDistinct, same⟩⟩
        rw [List.map_append, List.map_singleton, List.nodup_append] at nextDistinct
        exact fun present => nextDistinct.2.2 _ present _ (.head _) rfl

/-- Children make up an object exactly if their names differ. -/
theorem ofChildren_eq_ok_iff
    {children : List Node}
    {object : Object} :
    ofChildren children = .ok object ↔
      (children.map Node.name).Nodup ∧ { children := children } = object :=
  insertAll_eq_ok_iff List.nodup_nil

/-- A group of children can be added. -/
theorem addGroup_of_known
    {object : Object}
    {members : List String}
    (known : ∀ member ∈ members, Node.hasChild member object.children)
    (path : FieldPath) :
    object.addGroup path members =
      .ok (object.withGroups (object.groups ++ [members].filter (· ∉ object.groups))) := by
  have familiar : Node.strangeMember? object.children members = none := by
    simpa [Node.strangeMember?] using known
  by_cases present : members ∈ object.groups
  · simp [addGroup, familiar, present]
    rfl
  · simp [addGroup, familiar, present]
    rfl

/-- Distinct groups of children can be added. -/
theorem addGroups_of_known
    {object : Object}
    {groups : List (List String)}
    (distinct : groups.Nodup)
    (known : ∀ group ∈ groups, ∀ member ∈ group, Node.hasChild member object.children)
    (path : FieldPath) :
    object.addGroups path groups =
      .ok (object.withGroups (object.groups ++ groups.filter (· ∉ object.groups))) := by
  obtain ⟨grouped, added⟩ : ∃ grouped, object.addGroups path groups = .ok grouped := by
    clear distinct
    induction groups generalizing object with
    | nil => exact ⟨object, rfl⟩
    | cons members rest hypothesis =>
        rw [List.forall_mem_cons] at known
        rw [addGroups, addGroup_of_known known.1]
        exact hypothesis known.2
  rw [added, (addGroups_spec distinct added).2]

end Object

namespace Node

/-- A group of its children leaves an object sound. -/
theorem SoundParts.addGroup
    {object grouped : Object}
    {path : FieldPath}
    {members : List String}
    (parts : SoundParts object.facets object.children)
    (added : object.addGroup path members = .ok grouped) :
    SoundParts grouped.facets grouped.children := by
  obtain ⟨known, rfl⟩ := Object.addGroup_spec added
  refine ⟨parts.distinct, ?_, ?_, parts.className⟩
  · refine parts.groups.append (List.filter_sublist.nodup (List.nodup_singleton _)) ?_
    intro group present new
    exact of_decide_eq_true (List.mem_filter.mp new).2 present
  · intro group present
    rcases List.mem_append.mp present with old | new
    · exact parts.known group old
    · rw [List.mem_singleton.mp (List.mem_of_mem_filter new)]
      exact known

/-- And so do groups one after another, which leave the children alone. -/
theorem SoundParts.addGroups
    {object grouped : Object}
    {path : FieldPath}
    {groups : List (List String)}
    (parts : SoundParts object.facets object.children)
    (added : object.addGroups path groups = .ok grouped) :
    SoundParts grouped.facets grouped.children ∧ grouped.children = object.children := by
  induction groups generalizing object with
  | nil =>
      cases added
      exact ⟨parts, rfl⟩
  | cons members rest hypothesis =>
      obtain ⟨next, first, others⟩ := bind_eq_ok_iff.mp added
      obtain ⟨sound, same⟩ := hypothesis (parts.addGroup first) others
      obtain ⟨-, rfl⟩ := Object.addGroup_spec first
      exact ⟨sound, same⟩

/-- Children with distinct names make up a sound object. -/
theorem SoundParts.ofChildren
    {children : List Node}
    {object : Object}
    (built : Object.ofChildren children = .ok object) :
    SoundParts object.facets object.children := by
  obtain ⟨distinct, rfl⟩ := Object.ofChildren_eq_ok_iff.mp built
  exact ⟨distinct, List.nodup_nil, by simp, by simp⟩

end Node

end Schema
end SchemaCompiler
