import SchemaCompiler.Name.Standard
import SchemaCompiler.Proofs.Client.Structs
import SchemaCompiler.Proofs.Registry.ExpandedWalk
import SchemaCompiler.Proofs.Resource.Levels

/-!
# Secrets in the client and in the resource schema

The client of an entry has key methods for each secret that a field is or that the elements
of a list are. The resource schema marks a field that is a secret as sensitive, and no list.
-/

namespace SchemaCompiler
namespace Generation

open SchemaCompiler.Client (Definitions secretPlace? secretPlace?_of_element secretPlace?_of_value)
open SchemaCompiler.Outcome
open SchemaCompiler.Resource (Attribute Level ResourceSchema isSecret)
open SchemaCompiler.Schema

/-- An attribute is sensitive exactly if its field stands for a secret. -/
theorem isSensitive_eq_isSecret
    [Name.Lettering]
    {registry : Registry}
    {level : Level}
    (made : level.Made registry)
    {node : Node}
    {shown : Attribute}
    (member : (node, shown) ∈ level.fields) :
    ∃ canonical, registry.resolve node = .ok canonical ∧
      shown.facts.isSensitive = isSecret canonical := by
  obtain ⟨path, usage, facts, canonical, converted, opened, converts, rfl⟩ := made.field member
  obtain ⟨resolved, exposure, rfl⟩ := Resource.openField_eq_ok opened
  refine ⟨canonical, resolved, ?_⟩
  rw [Resource.isSensitive_addGroup, converts.facts_eq.2]
  rfl

/-- The value of a field with key methods for it is a secret. -/
theorem isSecret_of_value
    {registry : Registry}
    {node canonical : Node}
    (resolved : registry.resolve node = .ok canonical)
    (isValue : secretPlace? registry node = some .value) :
    isSecret canonical = true := by
  cases canonical with
  | array declaration facets element =>
      simp [secretPlace?, resolved, Node.element?, Option.bind_eq_some_iff] at isValue
  | object declaration facets children =>
      rw [secretPlace?_of_value resolved rfl] at isValue
      cases isValue
  | scalar declaration facets =>
      rw [secretPlace?_of_value resolved rfl] at isValue
      have encrypted : (Node.scalar declaration facets).isEncrypted = true := by
        by_contra plain
        rw [if_neg plain] at isValue
        cases isValue
      cases facets with
      | bool | int | float => cases encrypted
      | string facets =>
          simpa [isSecret, Node.string?, Node.isEncrypted] using Or.inr encrypted

/-- A list is no secret, whatever its elements are. -/
theorem not_isSecret_of_element
    {registry : Registry}
    {node canonical : Node}
    (resolved : registry.resolve node = .ok canonical)
    (inElement : secretPlace? registry node = some .element) :
    isSecret canonical = false := by
  cases canonical with
  | array declaration facets element => rfl
  | scalar | object =>
      rw [secretPlace?_of_value resolved rfl] at inElement
      split at inElement <;> cases inElement

/-- Every struct in the client of an entry is that of an object in it. Where such an object and
a level of a resource schema share a field, and the client has key methods for the field, its
attribute is sensitive exactly if the secret is not in the elements of a list. -/
theorem secrets_agree_iff
    [Name.Lettering]
    {registry : Registry}
    {index : Client.TypeIndex}
    {usage : UsageIndex}
    {id : String}
    {managed : Namespace}
    {definitions : Definitions}
    {schema : ResourceSchema}
    (convertedEntry : Client.convertEntry registry index id = .ok definitions)
    (convertedNamespace : Resource.ofNamespace registry usage managed = some (.ok schema)) :
    (∀ struct ∈ definitions.structs, ∃ entry,
      registry.root id = .ok entry ∧ Client.Explains registry entry struct) ∧
      ∀ part, definitions.HasPart registry id part →
        ∀ level, schema.HasLevel registry managed level →
          ∀ shown, (part.node, shown) ∈ level.fields →
            ((part.keyMethods ≠ [] → shown.facts.isSensitive = true) ↔
              secretPlace? registry part.node ≠ some .element) := by
  refine ⟨fun struct member => Client.explains_of_convertEntry convertedEntry member, ?_⟩
  intro part hasPart level hasLevel shown inFields
  obtain ⟨canonical, resolved, sensitive⟩ :=
    isSensitive_eq_isSecret (hasLevel.made convertedNamespace) inFields
  rw [hasPart.made.keyMethods_ne_nil_iff, sensitive]
  rcases place : secretPlace? registry part.node with _ | ⟨_ | _⟩
  · simp
  · simp [isSecret_of_value resolved place]
  · simp [not_isSecret_of_element resolved place]

/-! ## A list of secrets -/

/-- A secret. -/
def passwordField : Node := .scalar { name := "password" } (.string { hashing := .solo })

/-- A list of secrets. -/
def tokensField : Node :=
  .array { name := "tokens" } {} (.scalar {} (.string { hashing := .solo }))

/-- An entry with both. -/
def vaultEntry : Node := .object { name := "vault" } {} [passwordField, tokensField]

/-- The entry alone. -/
def vaultRegistry : Registry := ⟨.ofList [("vault", vaultEntry)]⟩

/-- A namespace that manages the entry. -/
def vaultNamespace : Namespace := { name := "Vault", schema := "vault" }

theorem sorted_vaultEntry :
    Node.sorted [passwordField, tokensField] = [passwordField, tokensField] :=
  List.mergeSort_of_pairwise (by decide)

/-- The fields of the entry convert to two fields with key methods. -/
theorem convertFields_vaultRegistry
    (index : Client.TypeIndex)
    (owner : String) :
    ∃ struct, Client.convertFields vaultRegistry index [] owner FieldPath.root
      [⟨vaultEntry, vaultEntry⟩] [passwordField, tokensField] = .ok (struct, {}) := by
  have resolved : ∀ path, vaultRegistry.resolveAt path passwordField = .ok passwordField :=
    fun _ => rfl
  have resolvedList : ∀ path, vaultRegistry.resolveAt path tokensField = .ok tokensField :=
    fun _ => rfl
  have derived : ∃ methods, Client.fieldKeyMethods vaultRegistry
      (FieldPath.root.child passwordField.name) (Name.fieldName passwordField.name)
        ⟨⟨passwordField, passwordField⟩, [⟨vaultEntry, vaultEntry⟩]⟩ = .ok methods := ⟨_, rfl⟩
  have derivedList : ∃ methods, Client.fieldKeyMethods vaultRegistry
      (FieldPath.root.child tokensField.name) (Name.fieldName tokensField.name)
        ⟨⟨tokensField, tokensField⟩, [⟨vaultEntry, vaultEntry⟩]⟩ = .ok methods := ⟨_, rfl⟩
  obtain ⟨methods, derived⟩ := derived
  obtain ⟨listMethods, derivedList⟩ := derivedList
  rw [Client.convertFields, resolved, ok_bind]
  dsimp only
  rw [derived, ok_bind, Client.convertType_of_plain rfl, passwordField, Client.convertCanonical,
    ok_bind, ← passwordField, Client.convertFields, resolvedList, ok_bind]
  dsimp only
  rw [derivedList, ok_bind, Client.convertType_of_plain rfl, tokensField, Client.convertCanonical,
    Client.convertType_of_plain rfl, Client.convertCanonical, ok_bind, Client.convertFields]
  exact ⟨_, rfl⟩

/-- The entry has a client with one struct, whose parts are the two fields. -/
theorem convertEntry_vaultRegistry (index : Client.TypeIndex) :
    ∃ definitions password tokens,
      Client.convertEntry vaultRegistry index "vault" = .ok definitions ∧
        definitions.HasPart vaultRegistry "vault" ⟨passwordField, password⟩ ∧
        definitions.HasPart vaultRegistry "vault" ⟨tokensField, tokens⟩ := by
  obtain ⟨struct, converted⟩ := convertFields_vaultRegistry index (index.classOf "vault")
  obtain ⟨⟨parts, holds⟩, -⟩ :=
    (Client.explained_conversion vaultRegistry index).1 _ _ _ _ _ _ _ converted
  obtain ⟨⟨_, password⟩, rest, rfl, rfl, nodes⟩ := List.map_eq_cons_iff.mp holds.nodes
  obtain ⟨⟨_, tokens⟩, rest, rfl, rfl, noMore⟩ := List.map_eq_cons_iff.mp nodes
  obtain rfl := List.map_eq_nil_iff.mp noMore
  have found : vaultRegistry.root "vault" = .ok vaultEntry := rfl
  have sorted : Object.sortedChildren ⟨[passwordField, tokensField], {}⟩ =
      [passwordField, tokensField] := sorted_vaultEntry
  have documented := holds.documented (.ofOption none)
  rw [← sorted] at documented
  refine ⟨{ structs := [{ struct with documentation := .ofOption none }] }, password, tokens,
    ?_, ?_, ?_⟩
  · unfold Client.convertEntry
    rw [found, ok_bind]
    dsimp only [vaultEntry, Client.convertRoot]
    rw [sorted_vaultEntry]
    rw [vaultEntry] at converted
    rw [converted]
    rfl
  · exact ⟨vaultEntry, _, _, _, List.mem_singleton.mpr rfl, found, .here _ _ _, documented,
      List.mem_cons_self⟩
  · exact ⟨vaultEntry, _, _, _, List.mem_singleton.mpr rfl, found, .here _ _ _, documented,
      List.mem_cons_of_mem _ List.mem_cons_self⟩

/-- The walk over the entry meets its two fields. -/
theorem collect_vaultRegistry :
    ∃ visits, vaultRegistry.collect .expanded vaultEntry = .ok visits := by
  have resolved : vaultRegistry.resolveAt FieldPath.root vaultEntry = .ok vaultEntry := rfl
  have noneOpen : vaultEntry.reference?.toList = [] := rfl
  unfold Registry.collect
  rw [resolved, ok_bind, noneOpen, vaultEntry, Registry.descend_object, sorted_vaultEntry,
    Registry.visitAll_cons, Registry.visit_of_plain rfl, passwordField, Registry.descend_scalar,
    ok_bind, Registry.visitAll_cons, Registry.visit_of_plain rfl, tokensField,
    Registry.descend_array, Registry.visit_of_plain rfl, Registry.descend_scalar, ok_bind,
    Registry.visitAll_nil]
  exact ⟨_, rfl⟩

/-- The entry has a resource schema. -/
theorem ofNamespace_vaultRegistry :
    ∃ schema,
      Resource.ofNamespace vaultRegistry ⟨.empty, .empty⟩ vaultNamespace = some (.ok schema) ∧
        schema.HasLevel vaultRegistry vaultNamespace
          ⟨⟨[passwordField, tokensField], {}⟩, schema.attributes⟩ := by
  have found : vaultRegistry.root vaultNamespace.schema = .ok vaultEntry := rfl
  have each : ∀ child ∈ [passwordField, tokensField], ∀ place, ∃ shown,
      vaultRegistry.convertField place (UsageIndex.usage ⟨.empty, .empty⟩ child.name) child =
        some (.ok shown) := by
    intro child member place
    rcases List.mem_pair.mp member with rfl | rfl
    · exact ⟨_, Resource.convertField_of_scalar rfl⟩
    · exact ⟨_, Resource.convertField_of_scalars rfl rfl⟩
  obtain ⟨visits, walked⟩ := collect_vaultRegistry
  exact Resource.exists_ofNamespace found walked each

/-- The attribute of the secret is sensitive. -/
theorem secrets_agree_passwordField :
    ∃ index definitions schema part level shown,
      Client.convertEntry vaultRegistry index "vault" = .ok definitions ∧
        Resource.ofNamespace vaultRegistry ⟨.empty, .empty⟩ vaultNamespace = some (.ok schema) ∧
        definitions.HasPart vaultRegistry "vault" part ∧
        schema.HasLevel vaultRegistry vaultNamespace level ∧
        (part.node, shown) ∈ level.fields ∧
        part.keyMethods ≠ [] ∧ shown.facts.isSensitive = true := by
  obtain ⟨definitions, password, tokens, convertedEntry, hasPart, -⟩ :=
    convertEntry_vaultRegistry (.build vaultRegistry [])
  obtain ⟨schema, convertedNamespace, hasLevel⟩ := ofNamespace_vaultRegistry
  obtain ⟨shown, inFields⟩ := (hasLevel.made convertedNamespace).exists_field List.mem_cons_self
  have isValue : secretPlace? vaultRegistry passwordField = some .value := rfl
  have derived : password ≠ [] := hasPart.made.keyMethods_ne_nil_iff.mpr (by rw [isValue]; rfl)
  have agree := (secrets_agree_iff convertedEntry convertedNamespace).2 _ hasPart _ hasLevel _
    inFields
  exact ⟨_, definitions, schema, _, _, shown, convertedEntry, convertedNamespace, hasPart,
    hasLevel, inFields, derived, agree.mpr (by rw [isValue]; decide) derived⟩

/-- Not every field with key methods has a sensitive attribute: the list of secrets has none. -/
theorem not_secrets_agree_tokensField :
    ¬∀ registry index usage id managed definitions schema,
      Client.convertEntry registry index id = .ok definitions →
      Resource.ofNamespace registry usage managed = some (.ok schema) →
      ∀ part, definitions.HasPart registry id part →
        ∀ level, schema.HasLevel registry managed level →
          ∀ shown, (part.node, shown) ∈ level.fields →
            part.keyMethods ≠ [] → shown.facts.isSensitive = true := by
  intro agree
  obtain ⟨definitions, password, tokens, convertedEntry, -, hasPart⟩ :=
    convertEntry_vaultRegistry (.build vaultRegistry [])
  obtain ⟨schema, convertedNamespace, hasLevel⟩ := ofNamespace_vaultRegistry
  have made := hasLevel.made convertedNamespace
  obtain ⟨shown, inFields⟩ := made.exists_field (List.mem_cons_of_mem _ List.mem_cons_self)
  have inElement : secretPlace? vaultRegistry tokensField = some .element := rfl
  have derived : tokens ≠ [] := hasPart.made.keyMethods_ne_nil_iff.mpr (by rw [inElement]; rfl)
  have sensitive :=
    agree _ _ _ _ _ _ _ convertedEntry convertedNamespace _ hasPart _ hasLevel _ inFields derived
  obtain ⟨canonical, resolved, notSecret⟩ := isSensitive_eq_isSecret made inFields
  rw [not_isSecret_of_element resolved inElement, sensitive] at notSecret
  cases notSecret

end Generation
end SchemaCompiler
