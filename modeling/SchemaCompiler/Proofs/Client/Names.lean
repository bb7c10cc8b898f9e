import SchemaCompiler.Proofs.Client.Assembly
import SchemaCompiler.Proofs.Registry.References

/-!
# Names that a client uses

Every struct name in the types of a client is that of a struct that the conversion has
declared beside it, or the class of an entry that it has recorded as a dependency. Each
dependency is an object entry, and its class is used.
-/

namespace SchemaCompiler
namespace Client

open SchemaCompiler.Schema

/-- Where the struct names in `used` types come from: the names in `declared` and the
classes of `dependencies`, which are object entries with a use each. -/
structure Traced
    [Name.Lettering]
    (registry : Registry)
    (index : TypeIndex)
    (used : List FieldType)
    (declared dependencies : List String) : Prop where
  origin : ∀ type ∈ used, ∀ name, type.name? = some name →
    name ∈ declared ∨ ∃ id ∈ dependencies, index.classOf id = name
  needed : ∀ id ∈ dependencies, ∃ type ∈ used, type.name? = some (index.classOf id)
  registered : ∀ id ∈ dependencies, ∃ entry,
    registry.get? id = some entry ∧ entry.isObject = true

namespace Traced

variable
  {registry : Registry}
  {index : TypeIndex}
  {used others : List FieldType}
  {declared more dependencies later : List String}

/-- Types without struct names need nothing. -/
theorem of_plain
    [Name.Lettering]
    (plain : ∀ type ∈ used, type.name? = none) :
    Traced registry index used declared [] where
  origin type member name named := by
    rw [plain type member] at named
    cases named
  needed id member := absurd member List.not_mem_nil
  registered id member := absurd member List.not_mem_nil

/-- The class of an object entry comes from its id. -/
theorem of_reference
    [Name.Lettering]
    {id : String}
    {entry : Node}
    (found : registry.get? id = some entry)
    (isObject : entry.isObject = true) :
    Traced registry index [.named (index.classOf id)] [] [id] where
  origin type member name named := by
    rw [List.mem_singleton.mp member] at named
    exact .inr ⟨id, List.mem_singleton.mpr rfl, Option.some.inj named⟩
  needed other member := by
    rw [List.mem_singleton.mp member]
    exact ⟨_, List.mem_singleton.mpr rfl, rfl⟩
  registered other member := by
    rw [List.mem_singleton.mp member]
    exact ⟨entry, found, isObject⟩

/-- What is used, declared and recorded matters, and in no order. -/
theorem of_same
    [Name.Lettering]
    (traced : Traced registry index used declared dependencies)
    (sameUsed : ∀ type, type ∈ others ↔ type ∈ used)
    (allDeclared : ∀ name ∈ declared, name ∈ more)
    (sameDependencies : ∀ id, id ∈ later ↔ id ∈ dependencies) :
    Traced registry index others more later where
  origin type member name named := by
    rcases traced.origin type ((sameUsed type).mp member) name named with own | ⟨id, known, same⟩
    · exact .inl (allDeclared name own)
    · exact .inr ⟨id, (sameDependencies id).mpr known, same⟩
  needed id member := by
    obtain ⟨type, inUsed, named⟩ := traced.needed id ((sameDependencies id).mp member)
    exact ⟨type, (sameUsed type).mpr inUsed, named⟩
  registered id member := traced.registered id ((sameDependencies id).mp member)

/-- Two parts of a client together. -/
theorem append
    [Name.Lettering]
    (first : Traced registry index used declared dependencies)
    (second : Traced registry index others more later) :
    Traced registry index (used ++ others) (declared ++ more) (dependencies ++ later) where
  origin type member name named := by
    rcases List.mem_append.mp member with left | right
    · rcases first.origin type left name named with own | ⟨id, known, same⟩
      · exact .inl (List.mem_append_left more own)
      · exact .inr ⟨id, List.mem_append_left later known, same⟩
    · rcases second.origin type right name named with own | ⟨id, known, same⟩
      · exact .inl (List.mem_append_right declared own)
      · exact .inr ⟨id, List.mem_append_right dependencies known, same⟩
  needed id member := by
    rcases List.mem_append.mp member with left | right
    · obtain ⟨type, inUsed, named⟩ := first.needed id left
      exact ⟨type, List.mem_append_left others inUsed, named⟩
    · obtain ⟨type, inUsed, named⟩ := second.needed id right
      exact ⟨type, List.mem_append_right used inUsed, named⟩
  registered id member :=
    (List.mem_append.mp member).elim (first.registered id) (second.registered id)

/-- A list uses the names of its elements. -/
theorem list
    [Name.Lettering]
    {type : FieldType}
    (traced : Traced registry index (type :: used) declared dependencies) :
    Traced registry index (.list type :: used) declared dependencies where
  origin other member name named := by
    rcases List.mem_cons.mp member with rfl | inUsed
    · exact traced.origin type List.mem_cons_self name named
    · exact traced.origin other (List.mem_cons_of_mem type inUsed) name named
  needed id member := by
    obtain ⟨other, place, named⟩ := traced.needed id member
    rcases List.mem_cons.mp place with rfl | inUsed
    · exact ⟨_, List.mem_cons_self, named⟩
    · exact ⟨other, List.mem_cons_of_mem _ inUsed, named⟩
  registered := traced.registered

/-- The name of a struct may be used once the struct is declared. -/
theorem named
    [Name.Lettering]
    {name : String}
    (traced : Traced registry index used declared dependencies)
    (known : name ∈ declared) :
    Traced registry index (.named name :: used) declared dependencies where
  origin other member otherName named := by
    rcases List.mem_cons.mp member with rfl | inUsed
    · obtain rfl : name = otherName := Option.some.inj named
      exact .inl known
    · exact traced.origin other inUsed otherName named
  needed id member := by
    obtain ⟨other, place, named⟩ := traced.needed id member
    exact ⟨other, List.mem_cons_of_mem _ place, named⟩
  registered := traced.registered

end Traced

/-- Types of the fields of structs. -/
def fieldTypes (structs : List Struct) : List FieldType :=
  structs.flatMap fun struct => struct.fields.map Field.type

@[simp] theorem fieldTypes_nil : fieldTypes [] = [] := rfl

@[simp] theorem mem_fieldTypes_cons
    (type : FieldType)
    (first : Struct)
    (rest : List Struct) :
    type ∈ fieldTypes (first :: rest) ↔
      type ∈ first.fields.map Field.type ∨ type ∈ fieldTypes rest := by
  simp [fieldTypes]

@[simp] theorem fieldTypes_append (left right : List Struct) :
    fieldTypes (left ++ right) = fieldTypes left ++ fieldTypes right := by
  simp [fieldTypes]

/-- What is left behind by a conversion, and the types of its result, are traced. -/
def Emission.Traced
    [Name.Lettering]
    (registry : Registry)
    (index : TypeIndex)
    (types : List FieldType)
    (emission : Emission) : Prop :=
  Client.Traced registry index (types ++ fieldTypes emission.structs)
    (emission.structs.map Struct.name) emission.dependencies

/-- A node that opens is expanded into its canonical node. -/
theorem target_of_expand
    {registry : Registry}
    {stack : List String}
    {path : FieldPath}
    {node : Node}
    {id : String}
    {opened : registry.Opened stack node}
    (named : node.reference? = some id)
    (expanded : registry.expand stack path node = .ok opened) :
    registry.get? id = some opened.canonical := by
  unfold Registry.expand at expanded
  split at expanded
  next plain => rw [named] at plain; cases plain
  next other otherNamed =>
    obtain rfl : id = other := Option.some.inj (named.symm.trans otherNamed)
    split at expanded
    · cases expanded
    next canonical resolved =>
      split at expanded
      · cases expanded
      · cases expanded
        exact (Registry.target_eq_ok_iff.mp resolved).1

theorem name?_scalarType (facets : Scalar) : (scalarType facets).name? = none := by
  cases facets with
  | bool facets =>
      rw [scalarType]
      split <;> rfl
  | int facets => rfl
  | float facets => rfl
  | string facets => rfl

/-- The names in the types of a conversion are traced. -/
theorem traced_conversion [Name.Lettering] (registry : Registry) (index : TypeIndex) :
    (∀ stack owner path enclosing children struct emission,
      convertFields registry index stack owner path enclosing children = .ok (struct, emission) →
        struct.name = owner ∧
          emission.Traced registry index (struct.fields.map Field.type)) ∧
    (∀ stack owner path enclosing node type emission,
      convertType registry index stack owner path enclosing node = .ok (type, emission) →
        emission.Traced registry index [type]) ∧
    ∀ stack owner path enclosing node canonical type emission,
      convertCanonical registry index stack owner path enclosing node canonical =
          .ok (type, emission) →
        emission.Traced registry index [type] := by
  apply conversion_induct registry index
  case nil =>
    intro owner enclosing
    exact ⟨rfl, .of_plain (by simp [fieldTypes])⟩
  case cons =>
    intro stack owner path enclosing child rest canonical methods type first struct others
      resolved derived converted ofChild ofRest
    refine ⟨ofRest.1, (ofChild.append ofRest.2).of_same ?_ ?_ ?_⟩
    · intro other
      simp only [fieldOf, List.map_cons, Emission.structs_append, fieldTypes_append,
        List.mem_append, List.mem_cons, List.not_mem_nil, or_false]
      grind
    · simp
    · simp
  case closed =>
    intro stack path enclosing node id opened named opens isObject
    exact .of_reference (target_of_expand named opens) isObject
  case expanded =>
    intro stack path enclosing node opened type emission opens unnamed traced
    exact traced
  case scalar =>
    intro enclosing node declaration facets
    exact .of_plain (by simp [fieldTypes, name?_scalarType])
  case array =>
    intro enclosing node declaration facets element type emission traced
    exact traced.list
  case object =>
    intro enclosing node declaration facets children name struct emission ⟨owned, traced⟩
    refine Traced.named (traced.of_same ?_ ?_ ?_) (by simp [owned])
    · intro other
      simp [or_comm]
    · intro other member
      simp [member]
    · simp

/-- The names in all types of the definitions are traced: to structs of objects, since no type
mentions an input or an output. -/
def Definitions.Traced
    [Name.Lettering]
    (registry : Registry)
    (index : TypeIndex)
    (definitions : Definitions) : Prop :=
  Client.Traced registry index definitions.types (definitions.structs.map Struct.name)
    definitions.dependencies.names

theorem mem_types_iff
    {definitions : Definitions}
    {type : FieldType} :
    type ∈ definitions.types ↔
      type ∈ fieldTypes definitions.allStructs ∨
        type ∈ definitions.outputs.filterMap Output.target? :=
  List.mem_append

theorem mem_dependencies_ofList
    {names : List String}
    {id : String} :
    id ∈ (Order.NameSet.ofList names).names ↔ id ∈ names :=
  Order.NameSet.mem_ofList names id

namespace Definitions

variable
  {registry : Registry}
  {index : TypeIndex}

/-- Definitions one after another are traced if each are. -/
theorem Traced.append
    [Name.Lettering]
    {first second : Definitions}
    (firstTraced : first.Traced registry index)
    (secondTraced : second.Traced registry index) :
    (first ++ second).Traced registry index := by
  refine (Client.Traced.append firstTraced secondTraced).of_same ?_ ?_ ?_
  · intro type
    simp only [List.mem_append, mem_types_iff, fieldTypes, allStructs, List.mem_flatMap,
      List.filterMap_append, List.map_append, structs_append, inputs_append, outputs_append]
    grind
  · intro name
    simp
  · intro id
    exact (Order.NameSet.mem_insertAll second.dependencies.names first.dependencies id).trans
      (or_comm.trans List.mem_append.symm)

/-- There are no names in no definitions. -/
theorem Traced.empty [Name.Lettering] : Definitions.empty.Traced registry index :=
  .of_plain (by simp [Definitions.empty, types, allStructs])

theorem accumulates_traced [Name.Lettering] : Accumulates (Definitions.Traced registry index) where
  empty := .empty
  append := .append

end Definitions

/-- The struct of a walked object is traced with what the walk left behind. -/
theorem traced_convertRoot
    [Name.Lettering]
    {registry : Registry}
    {index : TypeIndex}
    {name : String}
    {path : FieldPath}
    {node : Node}
    {struct : Struct}
    {emission : Emission}
    (made : convertRoot registry index name path node = .ok (struct, emission)) :
    emission.Traced registry index (struct.fields.map Field.type) := by
  unfold convertRoot at made
  split at made
  · exact ((traced_conversion registry index).1 _ _ _ _ _ _ _ made).2
  · cases made

/-- Definitions with the structs of a conversion and no type beside theirs are traced. -/
theorem Emission.Traced.definitions
    [Name.Lettering]
    {registry : Registry}
    {index : TypeIndex}
    {types : List FieldType}
    {emission : Emission}
    (traced : emission.Traced registry index types)
    {made : Definitions}
    (declares : emission.structs <+: made.structs)
    (sameDependencies : made.dependencies = .ofList emission.dependencies)
    (sameTypes : ∀ type, type ∈ made.types ↔ type ∈ types ∨ type ∈ fieldTypes emission.structs) :
    made.Traced registry index := by
  refine traced.of_same ?_ ?_ ?_
  · intro type
    rw [sameTypes, List.mem_append]
  · intro name member
    obtain ⟨struct, inside, rfl⟩ := List.mem_map.mp member
    exact List.mem_map_of_mem (declares.mem inside)
  · intro id
    rw [sameDependencies]
    exact mem_dependencies_ofList

theorem traced_convertEntry
    [Name.Lettering]
    {registry : Registry}
    {index : TypeIndex}
    {id : String}
    {definitions : Definitions}
    (made : convertEntry registry index id = .ok definitions) :
    definitions.Traced registry index := by
  obtain ⟨root, struct, emission, found, converted, rfl⟩ := exists_of_convertEntry made
  refine (traced_convertRoot converted).definitions (List.prefix_append _ _) ?_ ?_
  · simp [Emission.definitions]
  · intro type
    simp [mem_types_iff, Emission.definitions, Definitions.allStructs, or_comm]

theorem traced_convertInput
    [Name.Lettering]
    {registry : Registry}
    {index : TypeIndex}
    {lead : String}
    {function : Function}
    {definitions : Definitions}
    (made : convertInput registry index lead function = .ok definitions) :
    definitions.Traced registry index := by
  obtain ⟨taken, struct, emission, itemized, converted, rfl⟩ := exists_of_convertInput made
  refine (traced_convertRoot converted).definitions (List.prefix_refl _) rfl ?_
  intro type
  simp [mem_types_iff, Emission.definitions, Definitions.allStructs, or_comm]

theorem traced_convertOutput
    [Name.Lettering]
    {registry : Registry}
    {index : TypeIndex}
    {name : String}
    {path : FieldPath}
    {output : Node}
    {definitions : Definitions}
    (made : convertOutput registry index name path output = .ok definitions) :
    definitions.Traced registry index := by
  obtain ⟨documentation, emission, ⟨struct, converted, rfl⟩ | ⟨target, converted, rfl⟩⟩ :=
    exists_of_convertOutput made
  · refine (traced_convertRoot converted).definitions (List.prefix_refl _) rfl ?_
    intro type
    simp [mem_types_iff, Emission.definitions, Definitions.allStructs, Output.struct?,
      Output.target?, or_comm]
  · have traced := (traced_conversion registry index).2.1 _ _ _ _ _ _ _ converted
    refine traced.definitions (List.prefix_refl _) rfl ?_
    intro type
    simp [mem_types_iff, Emission.definitions, Definitions.allStructs, Output.struct?,
      Output.target?, List.filterMap_cons, or_comm]

/-- The names in a client of a namespace are traced. -/
theorem traced_convertNamespace
    [Name.Lettering]
    {registry : Registry}
    {index : TypeIndex}
    {managed : Namespace}
    {definitions : Definitions}
    (made : convertNamespace registry index managed = .ok definitions) :
    definitions.Traced registry index :=
  good_convertNamespace Definitions.accumulates_traced (fun _ => traced_convertEntry)
    (fun _ _ => ⟨fun _ _ => traced_convertInput, fun _ _ _ _ _ => traced_convertOutput⟩) made

end Client
end SchemaCompiler
