import SchemaCompiler.Client.Conversion
import SchemaCompiler.Proofs.Outcome

/-!
# How a client is put together

A conversion that succeeds goes through a tree by one of seven steps at a time, and what each
step keeps holds of the result. The definitions of a namespace are those of its entry, followed
by those of the inputs and outputs of its functions. What holds of each part, and of parts one
after another, holds of the whole.
-/

namespace SchemaCompiler
namespace Client

open SchemaCompiler.Key (Place Position)
open SchemaCompiler.Outcome
open SchemaCompiler.Schema

/-! ## Conversions of trees -/

/-- The field for a child that stands for a canonical node and has a type. -/
def fieldOf [Name.Lettering] (child canonical : Node) (type : FieldType) : Field where
  name := Name.fieldName child.name
  wireName := child.name
  documentation := fieldDocumentation child canonical
  type := type
  isOptional := isHeldOptional child canonical
  location := child.declaration.location

/-- A conversion goes from fields to the type of each, from a node to what it opens into, and from
there to the element of a list or to the fields of an object. -/
theorem descent_induct
    [Name.Lettering]
    (registry : Registry)
    {OfFields : List String → String → FieldPath → List Place → List Node → Prop}
    {OfType : List String → String → FieldPath → List Place → Node → Prop}
    {OfCanonical : List String → String → FieldPath → List Place → Node → Node → Prop}
    (nil : ∀ stack owner path enclosing, OfFields stack owner path enclosing [])
    (cons : ∀ stack owner path enclosing child rest,
      OfType stack owner (path.child child.name) enclosing child →
      OfFields stack owner path enclosing rest →
      OfFields stack owner path enclosing (child :: rest))
    (node : ∀ stack owner path enclosing node,
      (∀ opened : registry.Opened stack node,
        OfCanonical opened.inside owner path enclosing node opened.canonical) →
      OfType stack owner path enclosing node)
    (scalar : ∀ stack owner path enclosing node declaration facets,
      OfCanonical stack owner path enclosing node (.scalar declaration facets))
    (array : ∀ stack owner path enclosing node declaration facets element,
      OfType stack owner path (⟨node, .array declaration facets element⟩ :: enclosing) element →
      OfCanonical stack owner path enclosing node (.array declaration facets element))
    (object : ∀ stack owner path enclosing node declaration facets children,
      OfFields stack
        (nestedName owner
          (Position.mk ⟨node, .object declaration facets children⟩ enclosing).internalName)
        path (⟨node, .object declaration facets children⟩ :: enclosing) (Node.sorted children) →
      OfCanonical stack owner path enclosing node (.object declaration facets children)) :
    (∀ stack owner path enclosing children, OfFields stack owner path enclosing children) ∧
    (∀ stack owner path enclosing node, OfType stack owner path enclosing node) ∧
    ∀ stack owner path enclosing node canonical,
      OfCanonical stack owner path enclosing node canonical :=
  convertFields.mutual_induct registry OfFields OfType OfCanonical nil cons node scalar array
    object

section Results

variable
  [Name.Lettering]
  {registry : Registry}
  {index : TypeIndex}
  {stack : List String}
  {owner : String}
  {path : FieldPath}
  {enclosing : List Place}
  {node : Node}
  {declaration : Declaration}
  {type : FieldType}
  {emission : Emission}

/-- The struct of fields has the field and the key methods of the first child before those of
the rest. -/
theorem exists_of_convertFields_cons
    {child : Node}
    {rest : List Node}
    {struct : Struct}
    (made : convertFields registry index stack owner path enclosing (child :: rest) =
      .ok (struct, emission)) :
    ∃ canonical methods type first others later,
      registry.resolveAt (path.child child.name) child = .ok canonical ∧
        fieldKeyMethods registry (path.child child.name) (Name.fieldName child.name)
          ⟨⟨child, canonical⟩, enclosing⟩ = .ok methods ∧
        convertType registry index stack owner (path.child child.name) enclosing child =
          .ok (type, first) ∧
        convertFields registry index stack owner path enclosing rest = .ok (others, later) ∧
        struct = { others with
          fields := fieldOf child canonical type :: others.fields
          keyMethods := methods ++ others.keyMethods } ∧
        emission = first ++ later := by
  rw [convertFields] at made
  obtain ⟨canonical, resolved, made⟩ := bind_eq_ok_iff.mp made
  obtain ⟨methods, derived, made⟩ := bind_eq_ok_iff.mp made
  obtain ⟨⟨type, first⟩, converted, made⟩ := bind_eq_ok_iff.mp made
  obtain ⟨⟨others, later⟩, convertedRest, made⟩ := bind_eq_ok_iff.mp made
  cases made
  exact ⟨canonical, methods, type, first, others, later, resolved, derived, converted,
    convertedRest, rfl, rfl⟩

/-- A node has the class of the object that it refers to, or else the type of what it opens
into. -/
theorem exists_of_convertType
    (made : convertType registry index stack owner path enclosing node = .ok (type, emission)) :
    ∃ opened, registry.expand stack path node = .ok opened ∧
      ((∃ id, node.reference? = some id ∧ opened.canonical.isObject = true ∧
          type = .named (index.classOf id) ∧ emission = { dependencies := [id] }) ∨
        ((∀ id, node.reference? = some id → opened.canonical.isObject = false) ∧
          convertCanonical registry index opened.inside owner path enclosing node
            opened.canonical = .ok (type, emission))) := by
  rw [convertType] at made
  obtain ⟨opened, expanded, made⟩ := bind_eq_ok_iff.mp made
  refine ⟨opened, expanded, ?_⟩
  split at made
  next id named isObject =>
    cases made
    exact .inl ⟨id, named, isObject, rfl, rfl⟩
  next other => exact .inr ⟨fun id named => Bool.eq_false_iff.mpr (other id named), made⟩

theorem eq_of_convertCanonical_scalar
    {facets : Scalar}
    (made : convertCanonical registry index stack owner path enclosing node
      (.scalar declaration facets) = .ok (type, emission)) :
    type = scalarType facets ∧ emission = {} := by
  rw [convertCanonical] at made
  cases made
  exact ⟨rfl, rfl⟩

theorem exists_of_convertCanonical_array
    {facets : ArrayFacets}
    {element : Node}
    (made : convertCanonical registry index stack owner path enclosing node
      (.array declaration facets element) = .ok (type, emission)) :
    ∃ inner, type = .list inner ∧
      convertType registry index stack owner path
        (⟨node, .array declaration facets element⟩ :: enclosing) element =
          .ok (inner, emission) := by
  rw [convertCanonical] at made
  obtain ⟨⟨inner, emission⟩, converted, made⟩ := bind_eq_ok_iff.mp made
  cases made
  exact ⟨inner, rfl, converted⟩

/-- An object leaves its struct behind those of the objects in it. -/
theorem exists_of_convertCanonical_object
    {facets : ObjectFacets}
    {children : List Node}
    (made : convertCanonical registry index stack owner path enclosing node
      (.object declaration facets children) = .ok (type, emission)) :
    ∃ name struct inner,
      name = nestedName owner
        (Position.mk ⟨node, .object declaration facets children⟩ enclosing).internalName ∧
        convertFields registry index stack name path
          (⟨node, .object declaration facets children⟩ :: enclosing) (Node.sorted children) =
            .ok (struct, inner) ∧
        type = .named name ∧
        emission = inner ++ { structs := [{ struct with
          documentation := .ofOption declaration.description }] } := by
  rw [convertCanonical] at made
  obtain ⟨⟨struct, inner⟩, converted, made⟩ := bind_eq_ok_iff.mp made
  cases made
  exact ⟨_, struct, inner, rfl, converted, rfl, rfl⟩

end Results

/-- What every step of a conversion keeps holds of all that it makes: of the struct of fields, of
the type of a node, and of the type of what a node stands for, each with what is left behind. The
owner is the name of the struct around it. -/
theorem owned_conversion_induct
    [Name.Lettering]
    (registry : Registry)
    (index : TypeIndex)
    {OfFields : String → List Place → List Node → Struct → Emission → Prop}
    {OfType : String → List Place → Node → FieldType → Emission → Prop}
    {OfCanonical : String → List Place → Node → Node → FieldType → Emission → Prop}
    (nil : ∀ owner enclosing, OfFields owner enclosing [] { name := owner } {})
    (cons : ∀ stack owner path enclosing child rest canonical methods type first struct others,
      registry.resolveAt path child = .ok canonical →
      fieldKeyMethods registry path (Name.fieldName child.name) ⟨⟨child, canonical⟩, enclosing⟩ =
        .ok methods →
      convertType registry index stack owner path enclosing child = .ok (type, first) →
      OfType owner enclosing child type first →
      OfFields owner enclosing rest struct others →
      OfFields owner enclosing (child :: rest)
        { struct with
          fields := fieldOf child canonical type :: struct.fields
          keyMethods := methods ++ struct.keyMethods }
        (first ++ others))
    (closed : ∀ owner stack path enclosing node id (opened : registry.Opened stack node),
      node.reference? = some id →
      registry.expand stack path node = .ok opened →
      opened.canonical.isObject = true →
      OfType owner enclosing node (.named (index.classOf id)) { dependencies := [id] })
    (expanded : ∀ owner stack path enclosing node (opened : registry.Opened stack node) type
        emission,
      registry.expand stack path node = .ok opened →
      (∀ id, node.reference? = some id → opened.canonical.isObject = false) →
      OfCanonical owner enclosing node opened.canonical type emission →
      OfType owner enclosing node type emission)
    (scalar : ∀ owner enclosing node declaration facets,
      OfCanonical owner enclosing node (.scalar declaration facets) (scalarType facets) {})
    (array : ∀ owner enclosing node declaration facets element type emission,
      OfType owner (⟨node, .array declaration facets element⟩ :: enclosing) element type emission →
      OfCanonical owner enclosing node (.array declaration facets element) (.list type) emission)
    (object : ∀ owner enclosing node declaration facets children name struct emission,
      name = nestedName owner
        (Position.mk ⟨node, .object declaration facets children⟩ enclosing).internalName →
      OfFields name (⟨node, .object declaration facets children⟩ :: enclosing)
        (Node.sorted children) struct emission →
      OfCanonical owner enclosing node (.object declaration facets children) (.named name)
        (emission ++ { structs := [{ struct with
          documentation := .ofOption declaration.description }] })) :
    (∀ stack owner path enclosing children struct emission,
      convertFields registry index stack owner path enclosing children = .ok (struct, emission) →
        OfFields owner enclosing children struct emission) ∧
    (∀ stack owner path enclosing node type emission,
      convertType registry index stack owner path enclosing node = .ok (type, emission) →
        OfType owner enclosing node type emission) ∧
    ∀ stack owner path enclosing node canonical type emission,
      convertCanonical registry index stack owner path enclosing node canonical =
          .ok (type, emission) →
        OfCanonical owner enclosing node canonical type emission := by
  apply descent_induct registry
  case nil =>
    intro stack owner path enclosing struct emission made
    rw [convertFields] at made
    cases made
    exact nil owner enclosing
  case cons =>
    intro stack owner path enclosing child rest ofChild ofRest struct emission made
    obtain ⟨canonical, methods, type, first, others, later, resolved, derived, converted,
      convertedRest, rfl, rfl⟩ := exists_of_convertFields_cons made
    exact cons _ _ _ _ _ _ _ _ _ _ _ _ resolved derived converted (ofChild _ _ converted)
      (ofRest _ _ convertedRest)
  case node =>
    intro stack owner path enclosing node ofCanonical type emission made
    obtain ⟨opened, opens, ⟨id, named, isObject, rfl, rfl⟩ | ⟨plain, converted⟩⟩ :=
      exists_of_convertType made
    · exact closed _ _ _ _ _ id opened named opens isObject
    · exact expanded _ _ _ _ _ opened _ _ opens plain (ofCanonical opened _ _ converted)
  case scalar =>
    intro stack owner path enclosing node declaration facets type emission made
    obtain ⟨rfl, rfl⟩ := eq_of_convertCanonical_scalar made
    exact scalar _ _ _ _ _
  case array =>
    intro stack owner path enclosing node declaration facets element ofElement type emission made
    obtain ⟨inner, rfl, converted⟩ := exists_of_convertCanonical_array made
    exact array _ _ _ _ _ _ _ _ (ofElement _ _ converted)
  case object =>
    intro stack owner path enclosing node declaration facets children ofChildren type emission made
    obtain ⟨name, struct, inner, rfl, converted, rfl, rfl⟩ :=
      exists_of_convertCanonical_object made
    exact object _ _ _ _ _ _ _ _ _ rfl (ofChildren _ _ converted)

/-- The same for what does not depend on the owner. -/
theorem conversion_induct
    [Name.Lettering]
    (registry : Registry)
    (index : TypeIndex)
    {OfFields : String → List Place → List Node → Struct → Emission → Prop}
    {OfType : List Place → Node → FieldType → Emission → Prop}
    {OfCanonical : List Place → Node → Node → FieldType → Emission → Prop}
    (nil : ∀ owner enclosing, OfFields owner enclosing [] { name := owner } {})
    (cons : ∀ stack owner path enclosing child rest canonical methods type first struct others,
      registry.resolveAt path child = .ok canonical →
      fieldKeyMethods registry path (Name.fieldName child.name) ⟨⟨child, canonical⟩, enclosing⟩ =
        .ok methods →
      convertType registry index stack owner path enclosing child = .ok (type, first) →
      OfType enclosing child type first →
      OfFields owner enclosing rest struct others →
      OfFields owner enclosing (child :: rest)
        { struct with
          fields := fieldOf child canonical type :: struct.fields
          keyMethods := methods ++ struct.keyMethods }
        (first ++ others))
    (closed : ∀ stack path enclosing node id (opened : registry.Opened stack node),
      node.reference? = some id →
      registry.expand stack path node = .ok opened →
      opened.canonical.isObject = true →
      OfType enclosing node (.named (index.classOf id)) { dependencies := [id] })
    (expanded : ∀ stack path enclosing node (opened : registry.Opened stack node) type emission,
      registry.expand stack path node = .ok opened →
      (∀ id, node.reference? = some id → opened.canonical.isObject = false) →
      OfCanonical enclosing node opened.canonical type emission →
      OfType enclosing node type emission)
    (scalar : ∀ enclosing node declaration facets,
      OfCanonical enclosing node (.scalar declaration facets) (scalarType facets) {})
    (array : ∀ enclosing node declaration facets element type emission,
      OfType (⟨node, .array declaration facets element⟩ :: enclosing) element type emission →
      OfCanonical enclosing node (.array declaration facets element) (.list type) emission)
    (object : ∀ enclosing node declaration facets children name struct emission,
      OfFields name (⟨node, .object declaration facets children⟩ :: enclosing)
        (Node.sorted children) struct emission →
      OfCanonical enclosing node (.object declaration facets children) (.named name)
        (emission ++ { structs := [{ struct with
          documentation := .ofOption declaration.description }] })) :
    (∀ stack owner path enclosing children struct emission,
      convertFields registry index stack owner path enclosing children = .ok (struct, emission) →
        OfFields owner enclosing children struct emission) ∧
    (∀ stack owner path enclosing node type emission,
      convertType registry index stack owner path enclosing node = .ok (type, emission) →
        OfType enclosing node type emission) ∧
    ∀ stack owner path enclosing node canonical type emission,
      convertCanonical registry index stack owner path enclosing node canonical =
          .ok (type, emission) →
        OfCanonical enclosing node canonical type emission :=
  owned_conversion_induct registry index nil cons (fun _ => closed) (fun _ => expanded)
    (fun _ => scalar) (fun _ => array)
    fun _ _ _ _ _ _ _ _ _ _ => object _ _ _ _ _ _ _ _

/-! ## Entries, inputs and outputs -/

section Parts

variable
  {registry : Registry}
  {index : TypeIndex}
  {definitions : Definitions}

/-- The client of an entry has the struct of the entry behind those of the objects in it. -/
theorem exists_of_convertEntry
    [Name.Lettering]
    {id : String}
    (made : convertEntry registry index id = .ok definitions) :
    ∃ root struct emission, registry.root id = .ok root ∧
      convertRoot registry index (index.classOf id) FieldPath.root root =
        .ok (struct, emission) ∧
      definitions = (emission ++ { structs := [{ struct with
        documentation := .ofOption root.declaration.description }] }).definitions := by
  obtain ⟨root, found, made⟩ := bind_eq_ok_iff.mp made
  dsimp only at made
  split at made
  · cases made
  obtain ⟨⟨struct, emission⟩, converted, made⟩ := bind_eq_ok_iff.mp made
  cases made
  exact ⟨root, struct, emission, found, converted, rfl⟩

/-- The input of a function with the struct of what it takes. -/
def inputOf (function : Function) (struct : Struct) : Input where
  struct := { struct with
    documentation := ⟨[s!"Input of `{function.httpMethod} {function.uri}`."]⟩ }
  method := function.httpMethod
  address := function.uri
  addressParameters := addressParameters struct.fields function.placeholders

@[simp] theorem fields_inputOf
    (function : Function)
    (struct : Struct) :
    (inputOf function struct).struct.fields = struct.fields := rfl

/-- The client of what a function takes has its input and the structs of the objects in it. -/
theorem exists_of_convertInput
    [Name.Lettering]
    {lead : String}
    {function : Function}
    (made : convertInput registry index lead function = .ok definitions) :
    ∃ taken struct emission, function.itemizedInput = .ok taken ∧
      convertRoot registry index (lead ++ "Input") (FieldPath.single function.name) taken =
        .ok (struct, emission) ∧
      definitions = { emission.definitions with inputs := [inputOf function struct] } := by
  obtain ⟨taken, itemized, made⟩ := bind_eq_ok_iff.mp made
  obtain ⟨⟨struct, emission⟩, converted, made⟩ := bind_eq_ok_iff.mp made
  cases made
  exact ⟨taken, struct, emission, itemized, converted, rfl⟩

/-- The client of what a function returns has a struct for it if it is an object without
reference, else an alias, and the structs of the objects in it. -/
theorem exists_canonical_of_convertOutput
    [Name.Lettering]
    {name : String}
    {path : FieldPath}
    {node : Node}
    (made : convertOutput registry index name path node = .ok definitions) :
    ∃ canonical documentation emission, registry.resolveAt path node = .ok canonical ∧
      (((canonical.isObject && !node.isReference) = true ∧
          ∃ struct, convertRoot registry index name path node = .ok (struct, emission) ∧
            definitions = { emission.definitions with
              outputs := [.struct { struct with documentation := documentation }] }) ∨
        ((canonical.isObject && !node.isReference) = false ∧
          ∃ target, convertType registry index [] name path [] node = .ok (target, emission) ∧
            definitions = { emission.definitions with
              outputs := [.alias name documentation target] })) := by
  obtain ⟨canonical, resolved, made⟩ := bind_eq_ok_iff.mp made
  dsimp only at made
  split at made
  next isStruct =>
    obtain ⟨⟨struct, emission⟩, converted, made⟩ := bind_eq_ok_iff.mp made
    cases made
    exact ⟨canonical, _, emission, resolved, .inl ⟨isStruct, struct, converted, rfl⟩⟩
  next isAlias =>
    obtain ⟨⟨target, emission⟩, converted, made⟩ := bind_eq_ok_iff.mp made
    cases made
    exact ⟨canonical, _, emission, resolved,
      .inr ⟨Bool.eq_false_iff.mpr isAlias, target, converted, rfl⟩⟩

/-- The definitions of what a function returns have one of two forms. -/
theorem exists_of_convertOutput
    [Name.Lettering]
    {name : String}
    {path : FieldPath}
    {node : Node}
    (made : convertOutput registry index name path node = .ok definitions) :
    ∃ documentation emission,
      (∃ struct, convertRoot registry index name path node = .ok (struct, emission) ∧
        definitions = { emission.definitions with
          outputs := [.struct { struct with documentation := documentation }] }) ∨
      ∃ target, convertType registry index [] name path [] node = .ok (target, emission) ∧
        definitions = { emission.definitions with
          outputs := [.alias name documentation target] } := by
  obtain ⟨-, documentation, emission, -, ⟨-, isStruct⟩ | ⟨-, isAlias⟩⟩ :=
    exists_canonical_of_convertOutput made
  · exact ⟨documentation, emission, .inl isStruct⟩
  · exact ⟨documentation, emission, .inr isAlias⟩

end Parts

/-! ## Clients of namespaces -/

/-- A property that no definitions have, and definitions one after another if each have it. -/
structure Definitions.Accumulates (Good : Definitions → Prop) : Prop where
  empty : Good .empty
  append {first second : Definitions} : Good first → Good second → Good (first ++ second)

variable
  {registry : Registry}
  {index : TypeIndex}
  {Good : Definitions → Prop}

/-- A property of what a function takes and of what it returns. -/
structure GoodFunction
    [Name.Lettering]
    (registry : Registry)
    (index : TypeIndex)
    (Good : Definitions → Prop)
    (function : Function) : Prop where
  input (lead : String) (definitions : Definitions) :
    convertInput registry index lead function = .ok definitions → Good definitions
  output (node : Node) (name : String) (path : FieldPath) (definitions : Definitions) :
    function.output = some node →
    convertOutput registry index name path node = .ok definitions → Good definitions

theorem good_convertFunction
    [Name.Lettering]
    {namespaceType : String}
    {function : Function}
    {definitions : Definitions}
    (accumulates : Definitions.Accumulates Good)
    (good : GoodFunction registry index Good function)
    (made : convertFunction registry index namespaceType function = .ok definitions) :
    Good definitions := by
  obtain ⟨input, convertedInput, made⟩ := bind_eq_ok_iff.mp made
  have ofInput := good.input _ _ convertedInput
  split at made
  · cases made
    exact ofInput
  next node returned =>
    obtain ⟨output, convertedOutput, made⟩ := bind_eq_ok_iff.mp made
    cases made
    exact accumulates.append ofInput (good.output node _ _ _ returned convertedOutput)

theorem good_convertFunctions
    [Name.Lettering]
    {namespaceType : String}
    {functions : List (OperationKind × Function)}
    {definitions : Definitions}
    (accumulates : Definitions.Accumulates Good)
    (good : ∀ function ∈ functions, GoodFunction registry index Good function.2)
    (made : convertFunctions registry index namespaceType functions = .ok definitions) :
    Good definitions := by
  induction functions generalizing definitions with
  | nil =>
      cases made
      exact accumulates.empty
  | cons function rest hypothesis =>
      obtain ⟨first, converted, made⟩ := bind_eq_ok_iff.mp made
      obtain ⟨others, convertedRest, made⟩ := bind_eq_ok_iff.mp made
      cases made
      obtain ⟨ofFirst, ofRest⟩ := List.forall_mem_cons.mp good
      exact accumulates.append (good_convertFunction accumulates ofFirst converted)
        (hypothesis ofRest convertedRest)

/-- What holds of the entry and of all functions of a namespace holds of its client. -/
theorem good_convertNamespace
    [Name.Lettering]
    {managed : Namespace}
    {definitions : Definitions}
    (accumulates : Definitions.Accumulates Good)
    (entry : ∀ definitions,
      convertEntry registry index managed.schema = .ok definitions → Good definitions)
    (functions : ∀ function ∈ managed.functions, GoodFunction registry index Good function.2)
    (made : convertNamespace registry index managed = .ok definitions) :
    Good definitions := by
  obtain ⟨ofEntry, converted, made⟩ := bind_eq_ok_iff.mp made
  obtain ⟨others, convertedFunctions, made⟩ := bind_eq_ok_iff.mp made
  cases made
  exact accumulates.append (entry ofEntry converted)
    (good_convertFunctions accumulates functions convertedFunctions)

/-! ## All structs of a client -/

/-- What holds of all structs of definitions holds of those of definitions one after another. -/
theorem Definitions.accumulates_structs
    (Good : Struct → Prop) :
    Accumulates fun definitions => ∀ struct ∈ definitions.allStructs, Good struct where
  empty := List.forall_mem_nil _
  append := by
    intro first second ofFirst ofSecond struct member
    have inEither : struct ∈ first.allStructs ∨ struct ∈ second.allStructs := by
      simp only [allStructs, structs_append, inputs_append, outputs_append, List.map_append,
        List.filterMap_append, List.mem_append] at member ⊢
      grind
    exact inEither.elim (ofFirst struct) (ofSecond struct)

/-- A property of the struct of every walked object, however it is documented, and of those that
a walk leaves behind. -/
structure GoodStructs
    [Name.Lettering]
    (registry : Registry)
    (index : TypeIndex)
    (Good : Struct → Prop) : Prop where
  root {name : String} {path : FieldPath} {node : Node} {struct : Struct} {emission : Emission} :
    convertRoot registry index name path node = .ok (struct, emission) →
    ∀ documentation, ∀ inner ∈ emission.structs ++ [{ struct with documentation := documentation }],
      Good inner
  type {owner : String} {path : FieldPath} {node : Node} {type : FieldType} {emission : Emission} :
    convertType registry index [] owner path [] node = .ok (type, emission) →
    ∀ inner ∈ emission.structs, Good inner

namespace GoodStructs

variable
  {Good : Struct → Prop}
  {definitions : Definitions}

theorem convertEntry
    [Name.Lettering]
    {id : String}
    (good : GoodStructs registry index Good)
    (made : Client.convertEntry registry index id = .ok definitions) :
    ∀ struct ∈ definitions.allStructs, Good struct := by
  obtain ⟨root, struct, emission, found, converted, rfl⟩ := exists_of_convertEntry made
  simp only [Definitions.allStructs, Emission.definitions, Emission.structs_append, List.map_nil,
    List.filterMap_nil, List.append_nil]
  exact good.root converted _

theorem convertInput
    [Name.Lettering]
    {lead : String}
    {function : Function}
    (good : GoodStructs registry index Good)
    (made : Client.convertInput registry index lead function = .ok definitions) :
    ∀ struct ∈ definitions.allStructs, Good struct := by
  obtain ⟨taken, struct, emission, itemized, converted, rfl⟩ := exists_of_convertInput made
  simp only [Definitions.allStructs, Emission.definitions, List.map_cons, List.map_nil,
    List.filterMap_nil, List.append_nil]
  exact good.root converted _

theorem convertOutput
    [Name.Lettering]
    {name : String}
    {path : FieldPath}
    {output : Node}
    (good : GoodStructs registry index Good)
    (made : Client.convertOutput registry index name path output = .ok definitions) :
    ∀ struct ∈ definitions.allStructs, Good struct := by
  obtain ⟨documentation, emission, ⟨struct, converted, rfl⟩ | ⟨target, converted, rfl⟩⟩ :=
    exists_of_convertOutput made
  · simp only [Definitions.allStructs, Emission.definitions, List.map_nil, List.append_nil,
      List.filterMap_cons, Output.struct?, List.filterMap_nil]
    exact good.root converted _
  · simp only [Definitions.allStructs, Emission.definitions, List.map_nil, List.append_nil,
      List.filterMap_cons, Output.struct?, List.filterMap_nil]
    exact good.type converted

/-- All structs of the client of a namespace have the property. -/
theorem convertNamespace
    [Name.Lettering]
    {managed : Namespace}
    (good : GoodStructs registry index Good)
    (made : Client.convertNamespace registry index managed = .ok definitions) :
    ∀ struct ∈ definitions.allStructs, Good struct :=
  good_convertNamespace (Definitions.accumulates_structs Good) (fun _ => good.convertEntry)
    (fun _ _ => ⟨fun _ _ => good.convertInput, fun _ _ _ _ _ => good.convertOutput⟩) made

end GoodStructs

end Client
end SchemaCompiler
