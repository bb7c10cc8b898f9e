import SchemaCompiler.Name.Standard
import SchemaCompiler.Proofs.Client.Requests
import SchemaCompiler.Proofs.Registry.Nesting
import SchemaCompiler.Proofs.Resource.Levels

/-!
# Resource and client of an entry

The resource of an entry goes through all that the entry stands for, and its client only through
what it writes out. So where the resource is made, nothing but a key can stop the client. Both
take the fields from the entry as it stands: the fields of an entry that is itself a reference
are its own and not those of the entry it refers to, which the walk lists.
-/

namespace SchemaCompiler
namespace Generation

open SchemaCompiler.Client (Struct convertEntry)
open SchemaCompiler.Outcome
open SchemaCompiler.Resource (Attribute ofNamespace)
open SchemaCompiler.Schema
open Relation

/-! ## Errors of the client -/

/-- What a walk goes through without an error stops a client for a key only. -/
theorem isAboutKey_of_stops
    [Name.Lettering]
    {registry : Registry}
    {root : Node}
    {visits : List Visit}
    {cause : SchemaError}
    (plain : root.reference? = none)
    (walked : registry.collect .expanded root = .ok visits)
    (stops : Client.Stops registry root.unreferenced cause) :
    cause.isAboutKey = true := by
  have met : ∀ reference, registry.inlined.Meets root.unreferenced reference →
      registry.Meets root reference := by
    intro reference inlined
    refine inlined.of_inlined.of_frontier fun first member => ?_
    rw [Node.frontier_unreferenced] at member
    rwa [Node.frontier_of_reference?_none plain]
  cases stops with
  | key aboutKey => exact aboutKey
  | unresolved inlined failed =>
      obtain ⟨canonical, resolved⟩ :=
        (Registry.visited_of_meets plain walked (met _ inlined)).resolves
      cases failed.symm.trans (Registry.resolveAt_eq_ok_iff.mpr resolved)
  | cycle reached back =>
      obtain ⟨reference, inlined, named⟩ := reached
      have leads : registry.inlined.Leads ≤ registry.Leads := fun _ _ inlined => inlined.of_inlined
      exact absurd (TransGen.mono leads _ _ back)
        (Registry.not_transGen_of_collect_ok walked ⟨reference, met _ inlined, named⟩)

/-- If an entry that is no reference has a resource schema, it has a client too, or the key of a
secret cannot be derived. -/
theorem client_fails_for_keys_only
    [Name.Lettering]
    {registry : Registry}
    {usage : UsageIndex}
    {managed : Namespace}
    {root : Node}
    {schema : Resource.ResourceSchema}
    (found : registry.root managed.schema = .ok root)
    (plain : root.isReference = false)
    (converted : ofNamespace registry usage managed = some (.ok schema))
    (index : Client.TypeIndex) :
    (∃ definitions, convertEntry registry index managed.schema = .ok definitions) ∨
      ∃ cause, convertEntry registry index managed.schema = .error cause ∧
        cause.isAboutKey = true := by
  obtain ⟨declaration, facets, children, visits, foundToo, walked, -⟩ :=
    Resource.exists_of_ofNamespace converted
  obtain rfl : root = .object declaration facets children :=
    Except.ok.inj (found.symm.trans foundToo)
  cases outcome : convertEntry registry index managed.schema with
  | ok definitions => exact .inl ⟨definitions, rfl⟩
  | error cause =>
      have stops := (Client.guarded_convertEntry found rfl).stops cause outcome
      have unnamed := Option.not_isSome_iff_eq_none.mp (Bool.eq_false_iff.mp plain)
      exact .inr ⟨cause, rfl, isAboutKey_of_stops unnamed walked stops⟩

/-- A secret whose key needs a sibling that is not there. -/
def orphanField : Node := .scalar { name := "token" } (.string { hashing := .withSibling "user" })

/-- An entry with the secret. -/
def orphanEntry : Node := .object { name := "orphan" } {} [orphanField]

/-- The entry alone. -/
def orphanRegistry : Registry := ⟨.ofList [("orphan", orphanEntry)]⟩

/-- A namespace that manages the entry. -/
def orphanNamespace : Namespace := { name := "Orphan", schema := "orphan" }

theorem ofNamespace_orphanRegistry :
    ∃ schema, ofNamespace orphanRegistry ⟨.empty, .empty⟩ orphanNamespace = some (.ok schema) := by
  have resolved : orphanRegistry.resolveAt FieldPath.root orphanEntry = .ok orphanEntry := rfl
  have noneOpen : orphanEntry.reference?.toList = [] := rfl
  have walked : ∃ visits, orphanRegistry.collect .expanded orphanEntry = .ok visits := by
    unfold Registry.collect
    rw [resolved, ok_bind, noneOpen, orphanEntry, Registry.descend_object, Node.sorted,
      List.mergeSort_singleton, Registry.visitAll_cons, Registry.visit_of_plain rfl, orphanField,
      Registry.descend_scalar, Registry.visitAll_nil]
    exact ⟨_, rfl⟩
  have each : ∀ child ∈ [orphanField], ∀ place, ∃ shown,
      orphanRegistry.convertField place (UsageIndex.usage ⟨.empty, .empty⟩ child.name) child =
        some (.ok shown) := by
    intro child member place
    rw [List.mem_singleton.mp member]
    exact ⟨_, Resource.convertField_of_scalar rfl⟩
  obtain ⟨visits, walked⟩ := walked
  have found : orphanRegistry.root orphanNamespace.schema = .ok orphanEntry := rfl
  obtain ⟨schema, converted, -⟩ := Resource.exists_ofNamespace found walked each
  exact ⟨schema, converted⟩

theorem convertEntry_orphanRegistry (index : Client.TypeIndex) :
    convertEntry orphanRegistry index "orphan" =
      .error (.siblingNotFound (FieldPath.single "token") "user") := by
  have found : orphanRegistry.root "orphan" = .ok orphanEntry := rfl
  have resolved : ∀ path, orphanRegistry.resolveAt path orphanField = .ok orphanField :=
    fun _ => rfl
  have keys : ∀ path field, Client.fieldKeyMethods orphanRegistry path field
      ⟨⟨orphanField, orphanField⟩, [⟨orphanEntry, orphanEntry⟩]⟩ =
        .error (.siblingNotFound (FieldPath.single "token") "user") := fun _ _ => rfl
  unfold convertEntry
  rw [found, ok_bind]
  dsimp only [orphanEntry, Client.convertRoot]
  rw [Node.sorted, List.mergeSort_singleton, Client.convertFields, resolved, ok_bind]
  dsimp only
  rw [orphanEntry] at keys
  rw [keys]
  rfl

/-- The entry has a resource schema and no client, since the key cannot be derived. -/
theorem client_fails_for_keys_only_orphanRegistry :
    ∃ cause, convertEntry orphanRegistry (.build orphanRegistry []) "orphan" = .error cause ∧
      cause.isAboutKey = true := by
  obtain ⟨schema, converted⟩ := ofNamespace_orphanRegistry
  have found : orphanRegistry.root orphanNamespace.schema = .ok orphanEntry := rfl
  rcases client_fails_for_keys_only found rfl converted (.build orphanRegistry [])
    with made | failed
  · obtain ⟨definitions, made⟩ := made
    cases (convertEntry_orphanRegistry _).symm.trans made
  · exact failed

/-! ## Fields of an entry that is a reference -/

/-- The fields of an object as it stands, by display name. -/
def ownFields [Name.Lettering] (node : Node) : List Node := Node.sorted (node.children?.getD [])

/-- A resource has an attribute for every field of its entry as it stands. -/
theorem names_of_ofNamespace
    [Name.Lettering]
    {registry : Registry}
    {usage : UsageIndex}
    {managed : Namespace}
    {schema : Resource.ResourceSchema}
    {entry : Node}
    (found : registry.root managed.schema = .ok entry)
    (converted : ofNamespace registry usage managed = some (.ok schema)) :
    (schema.attributes.map fun shown => shown.facts.name) =
      (ownFields entry).map Node.snakeName := by
  obtain ⟨declaration, facets, children, visits, foundToo, -, fields⟩ :=
    Resource.exists_of_ofNamespace converted
  obtain rfl : entry = .object declaration facets children :=
    Except.ok.inj (found.symm.trans foundToo)
  exact Resource.names_of_convertFields fields

/-- The last struct of the client of an entry has a field for every field of the entry as it
stands. -/
theorem wireNames_of_convertEntry
    [Name.Lettering]
    {registry : Registry}
    {index : Client.TypeIndex}
    {id : String}
    {definitions : Client.Definitions}
    {entry : Node}
    (found : registry.root id = .ok entry)
    (converted : convertEntry registry index id = .ok definitions) :
    ∃ struct, definitions.structs.getLast? = some struct ∧
      struct.fields.map Client.Field.wireName = (ownFields entry).map Node.name := by
  obtain ⟨root, struct, emission, foundToo, made, rfl⟩ := Client.exists_of_convertEntry converted
  obtain rfl : entry = root := Except.ok.inj (found.symm.trans foundToo)
  cases entry with
  | scalar | array => cases made
  | object declaration facets children =>
      obtain ⟨⟨parts, holds⟩, -⟩ :=
        (Client.explained_conversion registry index).1 _ _ _ _ _ _ _ made
      exact ⟨_, List.getLast?_concat, holds.wireNames⟩

/-- The resource and the client of an entry have its own fields, and the walk over the entry lists
those of its canonical node right below the top. So if the entry is a reference to an object, the
resource and the client have the fields of the object exactly if the entry repeats their names. -/
theorem entry_fields_agree_iff
    [Name.Lettering]
    {registry : Registry}
    {managed : Namespace}
    {entry canonical : Node}
    (found : registry.root managed.schema = .ok entry)
    (resolved : registry.resolve entry = .ok canonical)
    (isObject : canonical.isObject = true) :
    (∀ visits, registry.collect .expanded entry = .ok visits →
      (Visit.topFields visits).map Visit.node = ownFields canonical) ∧
    (∀ usage schema, ofNamespace registry usage managed = some (.ok schema) →
      (schema.attributes.map fun shown => shown.facts.name) =
        (ownFields entry).map Node.snakeName ∧
      ∃ visits, registry.collect .expanded entry = .ok visits ∧
        ((schema.attributes.map fun shown => shown.facts.name) =
            (Visit.topFields visits).map (fun visit => visit.node.snakeName) ↔
          (ownFields entry).map Node.snakeName = (ownFields canonical).map Node.snakeName)) ∧
    ∀ index definitions, convertEntry registry index managed.schema = .ok definitions →
      ∃ struct, definitions.structs.getLast? = some struct ∧
        struct.fields.map Client.Field.wireName = (ownFields entry).map Node.name ∧
        ∀ visits, registry.collect .expanded entry = .ok visits →
          (struct.fields.map Client.Field.wireName =
              (Visit.topFields visits).map (fun visit => visit.node.name) ↔
            (ownFields entry).map Node.name = (ownFields canonical).map Node.name) := by
  have listed : ∀ visits, registry.collect .expanded entry = .ok visits →
      (Visit.topFields visits).map Visit.node = ownFields canonical := by
    intro visits walked
    cases canonical with
    | scalar declaration facets => cases facets <;> cases isObject
    | array declaration facets element => cases isObject
    | object declaration facets children => exact Registry.topFields_of_collect resolved walked
  refine ⟨listed, ?_, ?_⟩
  · intro usage schema converted
    have names := names_of_ofNamespace found converted
    obtain ⟨declaration, facets, children, visits, foundToo, walked, -⟩ :=
      Resource.exists_of_ofNamespace converted
    cases found.symm.trans foundToo
    refine ⟨names, visits, walked, ?_⟩
    rw [names, ← listed visits walked, List.map_map]
    rfl
  · intro index definitions converted
    obtain ⟨struct, last, names⟩ := wireNames_of_convertEntry found converted
    refine ⟨struct, last, names, fun visits walked => ?_⟩
    rw [names, ← listed visits walked, List.map_map]
    rfl

/-- A text. -/
def baseField : Node := .scalar { name := "host" } (.string {})

/-- An object with the text. -/
def baseEntry : Node := .object {} {} [baseField]

/-- A reference to the object, without fields of its own. -/
def aliasEntry : Node := .object { reference := some "base" } {} []

/-- The object and the reference to it. -/
def aliasRegistry : Registry := ⟨.ofList [("alias", aliasEntry), ("base", baseEntry)]⟩

/-- A namespace that manages the reference. -/
def aliasNamespace : Namespace := { name := "Site", schema := "alias" }

theorem root_aliasRegistry : aliasRegistry.root aliasNamespace.schema = .ok aliasEntry := rfl

theorem ownFields_aliasEntry : ownFields aliasEntry = [] := List.mergeSort_nil

/-- The walk over the reference lists the text. -/
theorem collect_aliasRegistry :
    ∃ visits, aliasRegistry.collect .expanded aliasEntry = .ok visits ∧
      (Visit.topFields visits).map Visit.node = [baseField] := by
  have resolved : aliasRegistry.resolveAt FieldPath.root aliasEntry = .ok baseEntry := rfl
  have opened : aliasEntry.reference?.toList = ["base"] := rfl
  unfold Registry.collect
  rw [resolved, ok_bind, opened, baseEntry, Registry.descend_object, Node.sorted,
    List.mergeSort_singleton, Registry.visitAll_cons, Registry.visit_of_plain rfl, baseField,
    Registry.descend_scalar, Registry.visitAll_nil]
  exact ⟨_, rfl, rfl⟩

/-- The resource of the reference is made. -/
theorem ofNamespace_aliasRegistry :
    ∃ schema, ofNamespace aliasRegistry ⟨.empty, .empty⟩ aliasNamespace = some (.ok schema) := by
  obtain ⟨visits, walked, -⟩ := collect_aliasRegistry
  obtain ⟨schema, converted, -⟩ := Resource.exists_ofNamespace root_aliasRegistry walked
    (fun _ none => absurd none List.not_mem_nil)
  exact ⟨schema, converted⟩

/-- The resource of the reference is made, and the text is missing from it. -/
theorem entry_fields_agree_iff_aliasRegistry :
    ∃ visits schema,
      aliasRegistry.collect .expanded aliasEntry = .ok visits ∧
        ofNamespace aliasRegistry ⟨.empty, .empty⟩ aliasNamespace = some (.ok schema) ∧
        (Visit.topFields visits).map Visit.node = [baseField] ∧
        schema.attributes = [] := by
  obtain ⟨visits, walked, listed⟩ := collect_aliasRegistry
  obtain ⟨schema, converted⟩ := ofNamespace_aliasRegistry
  have resolved : aliasRegistry.resolve aliasEntry = .ok baseEntry := rfl
  obtain ⟨-, resource, -⟩ := entry_fields_agree_iff root_aliasRegistry resolved rfl
  have names := (resource _ _ converted).1
  rw [ownFields_aliasEntry] at names
  exact ⟨visits, schema, walked, converted, listed, List.map_eq_nil_iff.mp names⟩

/-- Not every entry that is a reference to an object has the fields of the object in its
resource. -/
theorem not_entry_fields_agree_aliasRegistry :
    ¬∀ registry usage managed entry canonical visits schema,
      registry.root managed.schema = .ok entry →
      entry.isReference = true →
      registry.resolve entry = .ok canonical →
      canonical.isObject = true →
      registry.collect .expanded entry = .ok visits →
      ofNamespace registry usage managed = some (.ok schema) →
      (schema.attributes.map fun shown => shown.facts.name) =
        (Visit.topFields visits).map fun visit => visit.node.snakeName := by
  intro agree
  obtain ⟨visits, walked, listed⟩ := collect_aliasRegistry
  obtain ⟨schema, converted⟩ := ofNamespace_aliasRegistry
  have same := agree aliasRegistry _ _ _ baseEntry _ _ root_aliasRegistry rfl rfl rfl walked
    converted
  rw [names_of_ofNamespace root_aliasRegistry converted, ownFields_aliasEntry] at same
  rw [List.map_eq_nil_iff.mp same.symm] at listed
  cases listed

end Generation
end SchemaCompiler
