import SchemaCompiler.Name.Standard
import SchemaCompiler.Proofs.Client.Names
import SchemaCompiler.Proofs.Client.Requests

/-!
# Closed clients

A client needs nothing but the structs that it declares and the classes of its dependencies, and
it has none of either without need: every dependency and every struct is the type of some field
or alias, only the struct of the entry itself may be without use in the client.
-/

namespace SchemaCompiler
namespace Client

open SchemaCompiler.Key (Place)
open SchemaCompiler.Outcome
open SchemaCompiler.Schema

/-! ## Structs in use -/

/-- Every struct is mentioned by one of the types. -/
def AreUsed (types : List FieldType) (structs : List Struct) : Prop :=
  ∀ struct ∈ structs, ∃ type ∈ types, type.name? = some struct.name

namespace AreUsed

variable
  {types others : List FieldType}
  {structs more : List Struct}

theorem nil : AreUsed types [] := List.forall_mem_nil _

/-- What is used stays so beside further types. -/
theorem mono
    (used : AreUsed types structs)
    (kept : ∀ type ∈ types, type ∈ others) :
    AreUsed others structs := by
  intro struct member
  obtain ⟨type, inside, named⟩ := used struct member
  exact ⟨type, kept type inside, named⟩

theorem append
    (first : AreUsed types structs)
    (second : AreUsed types more) :
    AreUsed types (structs ++ more) :=
  List.forall_mem_append.mpr ⟨first, second⟩

/-- A struct whose name is a type is used. -/
theorem concat
    {struct : Struct}
    (used : AreUsed types structs)
    (named : .named struct.name ∈ types) :
    AreUsed types (structs ++ [struct]) :=
  used.append (List.forall_mem_singleton.mpr ⟨_, named, rfl⟩)

/-- A list of a type uses what the type does. -/
theorem list
    {type : FieldType}
    (used : AreUsed (type :: types) structs) :
    AreUsed (.list type :: types) structs := by
  intro struct member
  obtain ⟨other, inside, named⟩ := used struct member
  rcases List.mem_cons.mp inside with rfl | further
  · exact ⟨_, List.mem_cons_self, named⟩
  · exact ⟨other, List.mem_cons_of_mem _ further, named⟩

end AreUsed

/-- Every struct that a conversion leaves behind is in use, by the result or by another such
struct. -/
theorem used_conversion [Name.Lettering] (registry : Registry) (index : TypeIndex) :
    (∀ stack owner path enclosing children struct emission,
      convertFields registry index stack owner path enclosing children = .ok (struct, emission) →
        struct.name = owner ∧
          AreUsed (struct.fields.map Field.type ++ fieldTypes emission.structs)
            emission.structs) ∧
    (∀ stack owner path enclosing node type emission,
      convertType registry index stack owner path enclosing node = .ok (type, emission) →
        AreUsed (type :: fieldTypes emission.structs) emission.structs) ∧
    ∀ stack owner path enclosing node canonical type emission,
      convertCanonical registry index stack owner path enclosing node canonical =
          .ok (type, emission) →
        AreUsed (type :: fieldTypes emission.structs) emission.structs := by
  apply conversion_induct registry index
  case nil => exact fun owner enclosing => ⟨rfl, .nil⟩
  case cons =>
    intro stack owner path enclosing child rest canonical methods type first struct others
      resolved derived converted ofChild ofRest
    refine ⟨ofRest.1, (ofChild.mono ?_).append (ofRest.2.mono ?_)⟩ <;>
      simp only [fieldOf, List.map_cons, Emission.structs_append, fieldTypes_append,
        List.mem_append, List.mem_cons] <;>
      grind
  case closed => exact fun _ _ _ _ _ _ _ _ _ => .nil
  case expanded => exact fun _ _ _ _ _ _ _ _ _ used => used
  case scalar => exact fun _ _ _ _ => .nil
  case array => exact fun _ _ _ _ _ _ _ used => used.list
  case object =>
    intro enclosing node declaration facets children name struct emission ofFields
    obtain ⟨owned, used⟩ := ofFields
    refine (used.mono ?_).concat (owned ▸ List.mem_cons_self)
    intro type
    simp only [Emission.structs_append, fieldTypes_append, List.mem_append, List.mem_cons,
      mem_fieldTypes_cons]
    grind

theorem used_convertRoot
    [Name.Lettering]
    {registry : Registry}
    {index : TypeIndex}
    {name : String}
    {path : FieldPath}
    {node : Node}
    {struct : Struct}
    {emission : Emission}
    (made : convertRoot registry index name path node = .ok (struct, emission)) :
    struct.name = name ∧
      AreUsed (struct.fields.map Field.type ++ fieldTypes emission.structs) emission.structs := by
  unfold convertRoot at made
  split at made
  · exact (used_conversion registry index).1 _ _ _ _ _ _ _ made
  · cases made

/-! ## Definitions -/

namespace Definitions

/-- All structs are in use, and what is used is declared or recorded. -/
structure IsExact
    [Name.Lettering]
    (registry : Registry)
    (index : TypeIndex)
    (definitions : Definitions) : Prop where
  traced : definitions.Traced registry index
  used : AreUsed definitions.types definitions.structs

/-- Types of both are those of each. -/
theorem mem_types_append
    {first second : Definitions}
    {type : FieldType} :
    type ∈ (first ++ second).types ↔ type ∈ first.types ∨ type ∈ second.types := by
  simp only [mem_types_iff, fieldTypes, allStructs, List.mem_append, List.mem_flatMap,
    List.filterMap_append, List.map_append, structs_append, inputs_append, outputs_append]
  grind

theorem accumulates_isExact
    [Name.Lettering]
    (registry : Registry)
    (index : TypeIndex) :
    Accumulates (IsExact registry index) where
  empty := ⟨.empty, .nil⟩
  append first second :=
    ⟨first.traced.append second.traced,
      (first.used.mono fun _ member => mem_types_append.mpr (.inl member)).append
        (second.used.mono fun _ member => mem_types_append.mpr (.inr member))⟩

/-- A client is closed around a struct: its types mention structs that it declares and classes of
its dependencies only, each dependency is an object entry whose class is mentioned, and so is
every struct but the one around which it is closed. -/
structure IsClosed
    [Name.Lettering]
    (registry : Registry)
    (index : TypeIndex)
    (name : String)
    (definitions : Definitions) : Prop where
  origin : ∀ type ∈ definitions.types, ∀ mentioned, type.name? = some mentioned →
    (∃ struct ∈ definitions.structs, struct.name = mentioned) ∨
      ∃ id ∈ definitions.dependencies.names, index.classOf id = mentioned
  registered : ∀ id ∈ definitions.dependencies.names, ∃ entry,
    registry.get? id = some entry ∧ entry.isObject = true
  needed : ∀ id ∈ definitions.dependencies.names, ∃ type ∈ definitions.types,
    type.name? = some (index.classOf id)
  used : ∃ before struct after,
    definitions.structs = before ++ struct :: after ∧ struct.name = name ∧
      AreUsed definitions.types (before ++ after)

theorem IsClosed.of_traced
    [Name.Lettering]
    {registry : Registry}
    {index : TypeIndex}
    {name : String}
    {definitions : Definitions}
    (traced : definitions.Traced registry index)
    {before after : List Struct}
    {struct : Struct}
    (same : definitions.structs = before ++ struct :: after)
    (named : struct.name = name)
    (used : AreUsed definitions.types (before ++ after)) :
    definitions.IsClosed registry index name where
  origin type member mentioned found :=
    (traced.origin type member mentioned found).imp_left List.mem_map.mp
  registered := traced.registered
  needed := traced.needed
  used := ⟨before, struct, after, same, named, used⟩

/-- A closed client stays so with exact definitions behind it. -/
theorem IsClosed.append
    [Name.Lettering]
    {registry : Registry}
    {index : TypeIndex}
    {name : String}
    {first second : Definitions}
    (tracedFirst : first.Traced registry index)
    (closed : first.IsClosed registry index name)
    (exactSecond : second.IsExact registry index) :
    (first ++ second).IsClosed registry index name := by
  obtain ⟨before, struct, after, same, named, used⟩ := closed.used
  have sameStructs :
      (first ++ second).structs = before ++ struct :: (after ++ second.structs) := by
    simp [same]
  refine .of_traced (tracedFirst.append exactSecond.traced) sameStructs named ?_
  rw [← List.append_assoc]
  exact (used.mono fun _ member => mem_types_append.mpr (.inl member)).append
    (exactSecond.used.mono fun _ member => mem_types_append.mpr (.inr member))

end Definitions

variable
  {registry : Registry}
  {index : TypeIndex}
  {definitions : Definitions}

theorem isClosed_convertEntry
    [Name.Lettering]
    {id : String}
    (made : convertEntry registry index id = .ok definitions) :
    definitions.IsClosed registry index (index.classOf id) := by
  have traced := traced_convertEntry made
  obtain ⟨root, struct, emission, found, converted, rfl⟩ := exists_of_convertEntry made
  obtain ⟨named, used⟩ := used_convertRoot converted
  refine .of_traced traced rfl named ((List.append_nil _).symm ▸ used.mono ?_)
  intro type
  simp [mem_types_iff, Emission.definitions, Definitions.allStructs, or_comm]

theorem isExact_convertInput
    [Name.Lettering]
    {lead : String}
    {function : Function}
    (made : convertInput registry index lead function = .ok definitions) :
    definitions.IsExact registry index := by
  refine ⟨traced_convertInput made, ?_⟩
  obtain ⟨taken, struct, emission, itemized, converted, rfl⟩ := exists_of_convertInput made
  refine (used_convertRoot converted).2.mono fun type => ?_
  simp [mem_types_iff, Emission.definitions, Definitions.allStructs, or_comm]

theorem isExact_convertOutput
    [Name.Lettering]
    {name : String}
    {path : FieldPath}
    {output : Node}
    (made : convertOutput registry index name path output = .ok definitions) :
    definitions.IsExact registry index := by
  refine ⟨traced_convertOutput made, ?_⟩
  obtain ⟨documentation, emission, ⟨struct, converted, rfl⟩ | ⟨target, converted, rfl⟩⟩ :=
    exists_of_convertOutput made
  · refine (used_convertRoot converted).2.mono fun type => ?_
    simp [mem_types_iff, Emission.definitions, Definitions.allStructs, Output.struct?,
      Output.target?, or_comm]
  · refine ((used_conversion registry index).2.1 _ _ _ _ _ _ _ converted).mono fun type => ?_
    simp [mem_types_iff, Emission.definitions, Definitions.allStructs, Output.struct?,
      Output.target?, List.filterMap_cons, or_comm]

/-- A client of an entry or of a namespace is closed around the struct of its entry. Each name
that a type mentions is that of a struct declared for an object or the class of a dependency; each
dependency is an object entry of the registry and its class is mentioned; and all structs but that
of the entry are the type of a field or an alias, alone or in a list. -/
theorem client_is_closed
    [Name.Lettering]
    {request : Request}
    (made : request.convert registry index = .ok definitions) :
    definitions.IsClosed registry index (index.classOf request.schema) := by
  cases request with
  | entry id => exact isClosed_convertEntry made
  | managed owner =>
      obtain ⟨entry, convertedEntry, made⟩ := bind_eq_ok_iff.mp made
      obtain ⟨others, convertedFunctions, made⟩ := bind_eq_ok_iff.mp made
      cases made
      refine (isClosed_convertEntry convertedEntry).append (traced_convertEntry convertedEntry) ?_
      exact good_convertFunctions (Definitions.accumulates_isExact registry index)
        (fun _ _ => ⟨fun _ _ => isExact_convertInput, fun _ _ _ _ _ => isExact_convertOutput⟩)
        convertedFunctions

/-- A list of references to one entry. -/
def peersField : Node := .array { name := "peers" } {} (Registry.pointer "" "peer")

/-- An object inside another one, with the list. -/
def routeField : Node := .object { name := "route" } {} [peersField]

/-- An entry with the object, beside the entry that the elements of the list refer to. -/
def gateRegistry : Registry :=
  ⟨.ofList [("gate", .object { name := "gate" } {} [routeField]), ("peer", .object {} {} [])]⟩

/-- The object inside becomes a struct, and depends on the other entry. -/
theorem convertType_routeField
    (index : TypeIndex)
    (owner : String)
    (path : FieldPath)
    (enclosing : List Place) :
    ∃ name struct, convertType gateRegistry index [] owner path enclosing routeField =
      .ok (.named name, { structs := [struct], dependencies := ["peer"] }) := by
  have resolved : ∀ path, gateRegistry.resolveAt path peersField = .ok peersField := fun _ => rfl
  have keys : ∀ path field around, fieldKeyMethods gateRegistry path field
      ⟨⟨peersField, peersField⟩, around⟩ = .ok [] := fun _ _ _ => rfl
  have target : ∀ path, gateRegistry.target path (Registry.pointer "" "peer") "peer" =
      .ok (.object {} {} []) := fun _ => rfl
  have element : ∀ owner path around, convertType gateRegistry index [] owner path around
      (Registry.pointer "" "peer") =
        .ok (.named (index.classOf "peer"), { dependencies := ["peer"] }) :=
    fun _ path _ => convertType_of_object rfl (target path) List.not_mem_nil rfl
  have list : ∀ owner path around, convertType gateRegistry index [] owner path around peersField =
        .ok (.list (.named (index.classOf "peer")), { dependencies := ["peer"] }) := by
    intro owner path around
    rw [convertType_of_plain rfl, peersField, convertCanonical]
    dsimp only
    rw [element, ok_bind]
    rfl
  rw [convertType_of_plain rfl, routeField, convertCanonical]
  dsimp only
  rw [Node.sorted, List.mergeSort_singleton, convertFields, resolved, ok_bind]
  dsimp only
  rw [keys, ok_bind, list, ok_bind, convertFields]
  exact ⟨_, _, rfl⟩

/-- The client of the entry declares the struct and its own, and depends on the other entry. -/
theorem convertEntry_gateRegistry (index : TypeIndex) :
    ∃ definitions, convertEntry gateRegistry index "gate" = .ok definitions ∧
      definitions.structs.length = 2 ∧ definitions.dependencies = .ofList ["peer"] := by
  obtain ⟨name, struct, converted⟩ := convertType_routeField index (index.classOf "gate")
    (FieldPath.root.child routeField.name)
    [⟨.object { name := "gate" } {} [routeField], .object { name := "gate" } {} [routeField]⟩]
  have found : gateRegistry.root "gate" = .ok (.object { name := "gate" } {} [routeField]) := rfl
  have resolved : ∀ path, gateRegistry.resolveAt path routeField = .ok routeField := fun _ => rfl
  have keys : ∀ path field around, fieldKeyMethods gateRegistry path field
      ⟨⟨routeField, routeField⟩, around⟩ = .ok [] := fun _ _ _ => rfl
  rw [convertEntry, found, ok_bind]
  dsimp only [convertRoot]
  rw [Node.sorted, List.mergeSort_singleton, convertFields, resolved, ok_bind]
  dsimp only
  rw [keys, ok_bind, converted, ok_bind, convertFields]
  exact ⟨_, rfl, rfl, rfl⟩

/-- The struct of the object inside is used by that of the entry, and the class of the other
entry is used by the former. -/
theorem client_is_closed_gateRegistry :
    ∃ definitions, (Request.entry "gate").convert gateRegistry (.build gateRegistry []) =
        .ok definitions ∧
      definitions.structs.length = 2 ∧ definitions.dependencies = .ofList ["peer"] ∧
      definitions.IsClosed gateRegistry (.build gateRegistry [])
        (TypeIndex.classOf (.build gateRegistry []) "gate") := by
  obtain ⟨definitions, made, structs, dependencies⟩ :=
    convertEntry_gateRegistry (.build gateRegistry [])
  have converted : (Request.entry "gate").convert gateRegistry (.build gateRegistry []) =
      .ok definitions := made
  exact ⟨definitions, converted, structs, dependencies, client_is_closed converted⟩

end Client
end SchemaCompiler
