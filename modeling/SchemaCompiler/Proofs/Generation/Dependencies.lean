import SchemaCompiler.Generation.Run
import SchemaCompiler.Name.Standard
import SchemaCompiler.Proofs.Client.Dependencies
import SchemaCompiler.Proofs.Client.Obstacles
import SchemaCompiler.Proofs.Registry.Reachability

/-!
# Reported dependencies

A project reports the ids that references of an entry stand for, and the client of the entry
depends on the objects whose classes it has. A reference to an entry that is no object is reported
under the id of that entry, while the client has the classes of the objects in there. So the
reported ids cover the client exactly if they name these objects, too.
-/

namespace SchemaCompiler
namespace Generation

open SchemaCompiler.Client (Definitions TypeIndex UseClass UsesClass convertEntry)
open SchemaCompiler.Key (Place)
open SchemaCompiler.Order (NameSet)
open SchemaCompiler.Outcome
open SchemaCompiler.Schema

/-- A reference of the tree stands for the object of the id. -/
def CitesObject (registry : Registry) (tree : Node) (id : String) : Prop :=
  ∃ reference ∈ tree.references, reference.reference? = some id ∧
    ∃ canonical, registry.resolve reference = .ok canonical ∧ canonical.isObject = true

/-- A reference of the tree stands for an entry that is no object and has the class of the id in
it. -/
def BringsIn (registry : Registry) (tree : Node) (id : String) : Prop :=
  ∃ reference ∈ tree.references, ∃ canonical,
    registry.resolve reference = .ok canonical ∧ canonical.isObject = false ∧
      UseClass registry canonical.references id

section Entries

variable
  {registry : Registry}
  {index : TypeIndex}
  {id : String}
  {entry canonical : Node}
  {definitions : Definitions}
  {ids : NameSet}

/-- Classes in the types of references come from objects or through other entries. -/
theorem useClass_references_iff
    {tree : Node}
    {name : String} :
    UseClass registry tree.references name ↔
      CitesObject registry tree name ∨ BringsIn registry tree name := by
  constructor
  · rintro ⟨reference, member, uses⟩
    cases uses with
    | object named resolved isObject =>
        exact .inl ⟨reference, member, named, _, resolved, isObject⟩
    | through resolved plain inside uses =>
        exact .inr ⟨reference, member, _, resolved, plain, _, inside, uses⟩
  · rintro (⟨reference, member, named, canonical, resolved, isObject⟩ |
      ⟨reference, member, canonical, resolved, plain, inner, inside, uses⟩)
    · exact ⟨reference, member, .object named resolved isObject⟩
    · exact ⟨reference, member, .through resolved plain inside uses⟩

theorem CitesObject.cites
    {tree : Node}
    {name : String}
    (cites : CitesObject registry tree name) :
    tree.Cites name := by
  obtain ⟨reference, member, named, -⟩ := cites
  exact ⟨reference, member, named⟩

/-- The client of an entry depends on the objects that the references of the entry stand for, and
on those that other entries bring in. What is reported, by every project with the registry, are
the ids that references of its canonical node stand for. So all dependencies of the client are
reported exactly if both sorts are among these; for an entry that is no reference itself, exactly
if it cites every object that other entries bring in. -/
theorem dependencies_are_reported_iff
    [Name.Lettering]
    (found : registry.root id = .ok entry)
    (resolved : registry.resolve entry = .ok canonical)
    (converted : convertEntry registry index id = .ok definitions)
    (collected : registry.dependencies entry = .ok ids) :
    (∀ (project : Project) managed, project.registry = registry → managed.schema = id →
      project.dependencies managed = .ok ids) ∧
    (∀ name, name ∈ definitions.dependencies ↔
      CitesObject registry entry name ∨ BringsIn registry entry name) ∧
    (∀ name, name ∈ ids ↔ canonical.Cites name) ∧
    ((∀ name ∈ definitions.dependencies, name ∈ ids) ↔
      (∀ name, CitesObject registry entry name → canonical.Cites name) ∧
        ∀ name, BringsIn registry entry name → canonical.Cites name) ∧
    (entry.isReference = false →
      ((∀ name ∈ definitions.dependencies, name ∈ ids) ↔
        ∀ name, BringsIn registry entry name → entry.Cites name)) := by
  have needed : ∀ name, name ∈ definitions.dependencies ↔
      CitesObject registry entry name ∨ BringsIn registry entry name := fun name =>
    (Client.mem_dependencies_convertEntry_iff found converted).trans useClass_references_iff
  have reported : ∀ name, name ∈ ids ↔ canonical.Cites name := fun name =>
    Registry.mem_dependencies_iff resolved collected
  have covered : (∀ name ∈ definitions.dependencies, name ∈ ids) ↔
      (∀ name, CitesObject registry entry name → canonical.Cites name) ∧
        ∀ name, BringsIn registry entry name → canonical.Cites name := by
    simp only [needed, reported, or_imp, forall_and]
  refine ⟨?_, needed, reported, covered, fun plain => ?_⟩
  · rintro project managed rfl rfl
    rw [Project.dependencies, Registry.get?_of_root found]
    exact collected
  · have unnamed : entry.reference? = none :=
      Option.not_isSome_iff_eq_none.mp (Bool.eq_false_iff.mp plain)
    rw [Registry.resolve, Registry.resolveAt_of_reference?_none registry _ unnamed] at resolved
    obtain rfl : entry = canonical := Except.ok.inj resolved
    exact covered.trans (and_iff_right fun _ => CitesObject.cites)

end Entries

/-! ## A list entry of an object -/

/-- A reference to a list entry. -/
def hostsField : Node :=
  .array { name := "hosts", reference := some "hosts" } {} (.scalar {} (.bool {}))

/-- The list entry, whose elements are references to an object. -/
def hostsEntry : Node := .array { name := "hosts" } {} (Registry.pointer "" "host")

/-- An entry with the reference to the list entry. -/
def poolEntry : Node := .object { name := "pool" } {} [hostsField]

/-- The three entries. -/
def poolRegistry : Registry :=
  ⟨.ofList [("host", .object { name := "host" } {} []), ("hosts", hostsEntry),
    ("pool", poolEntry)]⟩

theorem root_poolRegistry : poolRegistry.root "pool" = .ok poolEntry := rfl

/-- The list entry is reported. -/
theorem dependencies_poolRegistry :
    poolRegistry.dependencies poolEntry = .ok (.ofList ["hosts"]) := by
  have opened : poolRegistry.resolveAt FieldPath.root poolEntry = .ok poolEntry := rfl
  have target : ∀ path, poolRegistry.target path hostsField "hosts" = .ok hostsEntry :=
    fun _ => rfl
  have sorted : Node.sorted [hostsField] = [hostsField] := List.mergeSort_singleton _
  rw [Registry.dependencies, Registry.collect, opened, ok_bind, poolEntry,
    Registry.descend_object, sorted, Registry.visitAll_cons,
    Registry.visit_of_closed rfl (target _), Registry.visitAll_nil]
  rfl

/-- The client has a field with a list of the object. -/
theorem convertEntry_poolRegistry (index : TypeIndex) :
    ∃ definitions, convertEntry poolRegistry index "pool" = .ok definitions ∧
      definitions.dependencies = .ofList ["host"] := by
  have resolved : ∀ path, poolRegistry.resolveAt path hostsField = .ok hostsEntry := fun _ => rfl
  have keys : ∀ path field around, Client.fieldKeyMethods poolRegistry path field
      ⟨⟨hostsField, hostsEntry⟩, around⟩ = .ok [] := fun _ _ _ => rfl
  have target : ∀ path, poolRegistry.target path hostsField "hosts" = .ok hostsEntry :=
    fun _ => rfl
  have host : ∀ path, poolRegistry.target path (Registry.pointer "" "host") "host" =
      .ok (.object { name := "host" } {} []) := fun _ => rfl
  have list : ∀ owner path around,
      Client.convertType poolRegistry index [] owner path around hostsField =
        .ok (.list (.named (index.classOf "host")), { dependencies := ["host"] }) := by
    intro owner path around
    rw [Client.convertType_of_inlined rfl (target path) List.not_mem_nil rfl, hostsEntry,
      Client.convertCanonical]
    dsimp only
    rw [Client.convertType_of_object rfl (host path) (by decide) rfl, ok_bind]
    rfl
  rw [convertEntry, root_poolRegistry, ok_bind]
  dsimp only [poolEntry, Client.convertRoot]
  rw [Node.sorted, List.mergeSort_singleton, Client.convertFields, resolved, ok_bind]
  dsimp only
  rw [keys, ok_bind, list, ok_bind, Client.convertFields]
  exact ⟨_, rfl, rfl⟩

/-- The list entry brings in an object that the entry does not cite, so the client depends on the
object and this is not reported. -/
theorem dependencies_are_reported_iff_poolRegistry :
    ∃ definitions ids,
      poolRegistry.root "pool" = .ok poolEntry ∧
      poolRegistry.resolve poolEntry = .ok poolEntry ∧
      convertEntry poolRegistry (.build poolRegistry []) "pool" = .ok definitions ∧
      poolRegistry.dependencies poolEntry = .ok ids ∧
      "host" ∈ definitions.dependencies ∧ "host" ∉ ids ∧
      BringsIn poolRegistry poolEntry "host" ∧ ¬poolEntry.Cites "host" := by
  obtain ⟨definitions, converted, needs⟩ := convertEntry_poolRegistry (.build poolRegistry [])
  have resolved : poolRegistry.resolve poolEntry = .ok poolEntry := rfl
  obtain ⟨-, needed, reported, -⟩ := dependencies_are_reported_iff root_poolRegistry resolved
    converted dependencies_poolRegistry
  have depends : "host" ∈ definitions.dependencies := by
    rw [needs]
    decide
  have missing : "host" ∉ NameSet.ofList ["hosts"] := by decide
  have uncited : ¬poolEntry.Cites "host" := fun cites => missing ((reported _).mpr cites)
  have broughtIn : BringsIn poolRegistry poolEntry "host" :=
    ((needed _).mp depends).resolve_left fun cites => uncited cites.cites
  exact ⟨definitions, _, root_poolRegistry, resolved, converted, dependencies_poolRegistry, depends,
    missing, broughtIn, uncited⟩

/-- Not every dependency of the client of an entry is reported. -/
theorem not_dependencies_are_reported_poolRegistry :
    ¬∀ registry index id entry definitions ids,
      registry.root id = .ok entry →
      convertEntry registry index id = .ok definitions →
      registry.dependencies entry = .ok ids →
      ∀ name ∈ definitions.dependencies, name ∈ ids := by
  intro covered
  obtain ⟨definitions, converted, needs⟩ := convertEntry_poolRegistry (.build poolRegistry [])
  have needed : "host" ∈ definitions.dependencies := by
    rw [needs]
    decide
  have reported : "host" ∉ NameSet.ofList ["hosts"] := by decide
  exact reported (covered _ _ _ _ _ _ root_poolRegistry converted dependencies_poolRegistry _
    needed)

end Generation
end SchemaCompiler
