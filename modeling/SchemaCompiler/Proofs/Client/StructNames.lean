import SchemaCompiler.Proofs.Client.Requests
import SchemaCompiler.Proofs.Client.Structs

/-!
# Names of structs

A client names its entries, inputs and outputs by themselves. Every object that is written out
inside one of these has a struct, whose name is that of the struct around it with the own name of
the object behind it. No name is ever compared with another one.
-/

namespace SchemaCompiler
namespace Client

open SchemaCompiler.Key (Place Position)
open SchemaCompiler.Outcome
open SchemaCompiler.Schema

/-! ## Objects that are written out -/

@[simp] theorem isObject_scalar
    (declaration : Declaration)
    (facets : Scalar) :
    (Node.scalar declaration facets).isObject = false := by
  cases facets <;> rfl

@[simp] theorem isObject_array
    (declaration : Declaration)
    (facets : ArrayFacets)
    (element : Node) :
    (Node.array declaration facets element).isObject = false := rfl

@[simp] theorem isObject_object
    (declaration : Declaration)
    (facets : ObjectFacets)
    (children : List Node) :
    (Node.object declaration facets children).isObject = true := rfl

/-- The nodes in a canonical node: the children of an object, or the element of an array. -/
def held (canonical : Node) : List Node :=
  canonical.children?.getD [] ++ canonical.element?.toList

@[simp] theorem held_scalar
    (declaration : Declaration)
    (facets : Scalar) :
    held (.scalar declaration facets) = [] := rfl

@[simp] theorem held_array
    (declaration : Declaration)
    (facets : ArrayFacets)
    (element : Node) :
    held (.array declaration facets element) = [element] := rfl

@[simp] theorem held_object
    (declaration : Declaration)
    (facets : ObjectFacets)
    (children : List Node) :
    held (.object declaration facets children) = children :=
  List.append_nil children

/-- The objects that are written out for a node: the one that it stands for, and those in it. -/
inductive WritesOut (registry : Registry) : List Place → Node → Position → Prop
  | here {around : List Place} {node canonical : Node} :
      Opens registry node canonical →
      canonical.isObject = true →
      WritesOut registry around node ⟨⟨node, canonical⟩, around⟩
  | inside {around : List Place} {node canonical inner : Node} {object : Position} :
      Opens registry node canonical →
      inner ∈ held canonical →
      WritesOut registry (⟨node, canonical⟩ :: around) inner object →
      WritesOut registry around node object

/-- The objects that are written out for what a node stands for. -/
def WritesOutAt
    (registry : Registry)
    (around : List Place)
    (place : Place)
    (object : Position) : Prop :=
  (place.canonical.isObject = true ∧ object = ⟨place, around⟩) ∨
    ∃ inner ∈ held place.canonical, WritesOut registry (place :: around) inner object

/-- A node that opens writes out what it stands for. -/
theorem writesOut_iff
    {registry : Registry}
    {around : List Place}
    {node canonical : Node}
    (opens : Opens registry node canonical)
    (object : Position) :
    WritesOut registry around node object ↔
      WritesOutAt registry around ⟨node, canonical⟩ object := by
  constructor
  · intro written
    cases written with
    | here others isObject =>
        cases opens.1.symm.trans others.1
        exact .inl ⟨isObject, rfl⟩
    | inside others member further =>
        cases opens.1.symm.trans others.1
        exact .inr ⟨_, member, further⟩
  · rintro (⟨isObject, rfl⟩ | ⟨inner, member, written⟩)
    · exact .here opens isObject
    · exact .inside opens member written

/-- A node that does not open writes out nothing. -/
theorem not_writesOut
    {registry : Registry}
    {around : List Place}
    {node : Node}
    {object : Position}
    (closed : ∀ canonical, ¬Opens registry node canonical) :
    ¬WritesOut registry around node object := by
  intro written
  cases written with
  | here opens _ => exact closed _ opens
  | inside opens _ _ => exact closed _ opens

/-- Whatever is written out is an object, around it are the given places. -/
theorem WritesOut.position
    {registry : Registry}
    {around : List Place}
    {node : Node}
    {object : Position}
    (written : WritesOut registry around node object) :
    object.canonical.isObject = true ∧ around <:+ object.enclosing := by
  induction written with
  | here opens isObject => exact ⟨isObject, List.suffix_rfl⟩
  | inside opens member written hypothesis =>
      exact ⟨hypothesis.1, (List.suffix_cons _ _).trans hypothesis.2⟩

/-! ## The naming rule -/

/-- Name of the struct of the nearest object, from a place outward to the start of the walk, which
has the name `root`. -/
def structName [Name.Lettering] (root : String) (place : Place) : List Place → String
  | [] => root
  | parent :: around =>
      let outer := structName root parent around
      if place.canonical.isObject then nestedName outer (Position.nameFrom place (parent :: around))
      else outer

/-- Name of the struct that is around whatever is inside the places. -/
def ownerName [Name.Lettering] (root : String) : List Place → String
  | [] => root
  | place :: around => structName root place around

/-- Name of the struct of an object. -/
def objectName [Name.Lettering] (root : String) (object : Position) : String :=
  structName root object.place object.enclosing

theorem structName_of_object
    [Name.Lettering]
    {root : String}
    {place : Place}
    {around : List Place}
    (isObject : place.canonical.isObject = true)
    (notStart : around ≠ []) :
    structName root place around =
      nestedName (ownerName root around) (Position.nameFrom place around) := by
  cases around with
  | nil => exact absurd rfl notStart
  | cons parent rest => exact if_pos isObject

theorem structName_of_other
    [Name.Lettering]
    {root : String}
    {place : Place}
    (noObject : place.canonical.isObject = false)
    (around : List Place) :
    structName root place around = ownerName root around := by
  cases around with
  | nil => rfl
  | cons parent rest => exact if_neg (Bool.eq_false_iff.mp noObject)

/-- The names are those of the objects that are written out, with one name for each. -/
def AreNames
    [Name.Lettering]
    (root : String)
    (names : List String)
    (Written : Position → Prop) : Prop :=
  ∃ objects : List Position, names = objects.map (objectName root) ∧
    ∀ object, object ∈ objects ↔ Written object

namespace AreNames

variable
  {root : String}
  {names others : List String}
  {Written More : Position → Prop}

theorem nil [Name.Lettering] (nothing : ∀ object, ¬Written object) : AreNames root [] Written :=
  ⟨[], rfl, fun object => ⟨fun member => absurd member List.not_mem_nil,
    fun written => absurd written (nothing object)⟩⟩

theorem singleton [Name.Lettering] (own : Position) :
    AreNames root [objectName root own] (· = own) :=
  ⟨[own], rfl, fun _ => List.mem_singleton⟩

theorem of_iff
    [Name.Lettering]
    (named : AreNames root names Written)
    (same : ∀ object, More object ↔ Written object) :
    AreNames root names More := by
  obtain ⟨objects, all, members⟩ := named
  exact ⟨objects, all, fun object => (members object).trans (same object).symm⟩

theorem append
    [Name.Lettering]
    (first : AreNames root names Written)
    (second : AreNames root others More) :
    AreNames root (names ++ others) fun object => Written object ∨ More object := by
  obtain ⟨objects, rfl, members⟩ := first
  obtain ⟨further, rfl, otherMembers⟩ := second
  refine ⟨objects ++ further, List.map_append.symm, fun object => ?_⟩
  rw [List.mem_append, members, otherMembers]

end AreNames

/-- The names of the structs that a conversion leaves behind. -/
def Emission.names (emission : Emission) : List String := emission.structs.map Struct.name

@[simp] theorem Emission.names_append (left right : Emission) :
    (left ++ right).names = left.names ++ right.names :=
  List.map_append

/-- Every conversion names the structs that it leaves behind by the rule. Only the start of a walk
is not named by it, so no object may open there. -/
theorem named_conversion [Name.Lettering] (registry : Registry) (index : TypeIndex) :
    (∀ stack owner path enclosing children struct emission,
      convertFields registry index stack owner path enclosing children = .ok (struct, emission) →
        struct.name = owner ∧ ∀ root, enclosing ≠ [] → owner = ownerName root enclosing →
          AreNames root emission.names fun object =>
            ∃ child ∈ children, WritesOut registry enclosing child object) ∧
    (∀ stack owner path enclosing node type emission,
      convertType registry index stack owner path enclosing node = .ok (type, emission) →
        ∀ root, owner = ownerName root enclosing →
          (enclosing = [] → ∀ canonical, Opens registry node canonical →
            canonical.isObject = false) →
          AreNames root emission.names (WritesOut registry enclosing node)) ∧
    ∀ stack owner path enclosing node canonical type emission,
      convertCanonical registry index stack owner path enclosing node canonical =
          .ok (type, emission) →
        ∀ root, owner = ownerName root enclosing →
          (enclosing = [] → canonical.isObject = false) →
          AreNames root emission.names (WritesOutAt registry enclosing ⟨node, canonical⟩) := by
  apply owned_conversion_induct registry index
  case nil =>
    intro owner enclosing
    exact ⟨rfl, fun root _ _ => .nil fun object => by simp⟩
  case cons =>
    intro stack owner path enclosing child rest canonical methods type first struct others
      resolved derived converted ofChild ofRest
    refine ⟨ofRest.1, fun root notStart owned => ?_⟩
    have inside := ofChild root owned fun start => absurd start notStart
    rw [Emission.names_append]
    exact (inside.append (ofRest.2 root notStart owned)).of_iff fun object => by simp
  case closed =>
    intro owner stack path enclosing node id opened named opens isObject root owned noObject
    refine .nil fun object => not_writesOut fun canonical other => other.2 ?_
    cases (resolve_of_expand opens).symm.trans other.1
    exact ⟨Option.isSome_iff_exists.mpr ⟨id, named⟩, isObject⟩
  case expanded =>
    intro owner stack path enclosing node opened type emission expands unnamed ofCanonical root
      owned noObject
    have opens : Opens registry node opened.canonical := by
      refine ⟨resolve_of_expand expands, ?_⟩
      rintro ⟨isReference, isObject⟩
      obtain ⟨id, named⟩ := Option.isSome_iff_exists.mp isReference
      exact Bool.eq_false_iff.mp (unnamed id named) isObject
    exact (ofCanonical root owned fun start => noObject start _ opens).of_iff (writesOut_iff opens)
  case scalar =>
    intro owner enclosing node declaration facets root owned noObject
    exact .nil fun object => by simp [WritesOutAt]
  case array =>
    intro owner enclosing node declaration facets element type emission ofElement root owned _
    refine (ofElement root ?_ fun impossible => nomatch impossible).of_iff fun object => ?_
    · exact owned.trans (structName_of_other (isObject_array ..) enclosing).symm
    · simp [WritesOutAt]
  case object =>
    intro owner enclosing node declaration facets children name struct emission same fields root
      owned noObject
    obtain ⟨named, ofFields⟩ := fields
    have notStart : enclosing ≠ [] := fun start => Bool.noConfusion (noObject start)
    have ownName : struct.name =
        objectName root ⟨⟨node, .object declaration facets children⟩, enclosing⟩ := by
      rw [named, same, owned, objectName, structName_of_object rfl notStart]
      rfl
    have inside := ofFields root (List.cons_ne_nil _ _) (named.symm.trans ownName)
    have names : (emission ++ { structs := [{ struct with
        documentation := .ofOption declaration.description }] }).names =
          emission.names ++ [struct.name] := by
      rw [Emission.names_append]
      rfl
    rw [names, ownName]
    refine (inside.append (.singleton _)).of_iff fun object => ?_
    simp [WritesOutAt, Node.mem_sorted, or_comm]

/-! ## Roots -/

/-- What a client names by itself: an entry, or what a function takes or returns, whose name
begins with that of the namespace and that of the function. -/
inductive Root where
  | entry (id : String)
  | input (lead : String) (function : Function)
  | output (lead : String) (node : Node)

namespace Root

/-- Name of a root. -/
def name [Name.Lettering] (index : TypeIndex) : Root → String
  | .entry id => index.classOf id
  | .input lead _ => lead ++ "Input"
  | .output lead _ => lead ++ "Output"

/-- The place around the objects in a root. There is none for an output that refers to an
object. -/
inductive StartsAt (registry : Registry) : Root → Place → Prop
  | entry {id : String} {node : Node} :
      registry.root id = .ok node →
      StartsAt registry (.entry id) ⟨node, node⟩
  | input {lead : String} {function : Function} {taken : Node} :
      function.itemizedInput = .ok taken →
      StartsAt registry (.input lead function) ⟨taken, taken⟩
  | output {lead : String} {node canonical : Node} :
      Opens registry node canonical →
      StartsAt registry (.output lead node) ⟨node, canonical⟩

/-- The object is written out inside the root. -/
def Inside (registry : Registry) (root : Root) (object : Position) : Prop :=
  ∃ place, root.StartsAt registry place ∧
    ∃ inner ∈ held place.canonical, WritesOut registry [place] inner object

/-- The names are that of the root and those of the objects that are written out inside it. -/
def HasNames
    [Name.Lettering]
    (registry : Registry)
    (index : TypeIndex)
    (root : Root)
    (names : List String) : Prop :=
  ∃ others, names = root.name index :: others ∧
    AreNames (root.name index) others (root.Inside registry)

theorem StartsAt.unique
    {registry : Registry}
    {root : Root}
    {place other : Place}
    (starts : root.StartsAt registry place)
    (alsoStarts : root.StartsAt registry other) :
    place = other := by
  cases starts with
  | entry found =>
      cases alsoStarts with
      | entry same => cases found.symm.trans same; rfl
  | input itemized =>
      cases alsoStarts with
      | input same => cases itemized.symm.trans same; rfl
  | output opens =>
      cases alsoStarts with
      | output same => cases opens.1.symm.trans same.1; rfl

theorem StartsAt.inside_iff
    {registry : Registry}
    {root : Root}
    {place : Place}
    (starts : root.StartsAt registry place)
    (object : Position) :
    root.Inside registry object ↔
      ∃ inner ∈ held place.canonical, WritesOut registry [place] inner object := by
  constructor
  · rintro ⟨other, alsoStarts, inside⟩
    rw [starts.unique alsoStarts]
    exact inside
  · exact fun inside => ⟨place, starts, inside⟩

end Root

/-- Names that are those of the roots, with one for every root and for every object that is
written out inside it. -/
def AreNamesOf
    [Name.Lettering]
    (registry : Registry)
    (index : TypeIndex)
    (roots : List Root)
    (names : List String) : Prop :=
  ∃ groups, List.Forall₂ (Root.HasNames registry index) roots groups ∧ names.Perm groups.flatten

namespace AreNamesOf

variable
  {registry : Registry}
  {index : TypeIndex}
  {roots more : List Root}
  {names others : List String}

theorem nil [Name.Lettering] : AreNamesOf registry index [] [] := ⟨[], .nil, .nil⟩

theorem singleton
    [Name.Lettering]
    {root : Root}
    (named : AreNames (root.name index) names (root.Inside registry))
    (same : others.Perm (root.name index :: names)) :
    AreNamesOf registry index [root] others :=
  ⟨[root.name index :: names], .cons ⟨names, rfl, named⟩ .nil, by simpa using same⟩

theorem append
    [Name.Lettering]
    (first : AreNamesOf registry index roots names)
    (second : AreNamesOf registry index more others) :
    AreNamesOf registry index (roots ++ more) (names ++ others) := by
  obtain ⟨groups, members, permuted⟩ := first
  obtain ⟨further, otherMembers, otherPermuted⟩ := second
  refine ⟨groups ++ further, List.rel_append members otherMembers, ?_⟩
  rw [List.flatten_append]
  exact permuted.append otherPermuted

theorem of_perm
    [Name.Lettering]
    (named : AreNamesOf registry index roots names)
    (permuted : others.Perm names) :
    AreNamesOf registry index roots others := by
  obtain ⟨groups, members, same⟩ := named
  exact ⟨groups, members, permuted.trans same⟩

/-- A name is that of a root or of an object inside one. -/
theorem mem_iff
    [Name.Lettering]
    (named : AreNamesOf registry index roots names)
    {name : String} :
    name ∈ names ↔ ∃ root ∈ roots, name = root.name index ∨
      ∃ object, root.Inside registry object ∧ name = objectName (root.name index) object := by
  obtain ⟨groups, members, permuted⟩ := named
  rw [permuted.mem_iff]
  clear permuted
  induction members with
  | nil => simp
  | cons first rest hypothesis =>
      obtain ⟨others, rfl, objects, rfl, inside⟩ := first
      rw [List.flatten_cons, List.mem_append, hypothesis, List.exists_mem_cons_iff]
      simp only [List.mem_cons, List.mem_map, inside, eq_comm]

end AreNamesOf

/-! ## Names of definitions -/

namespace Definitions

/-- The names that a file declares for its structs, inputs and outputs. -/
def names (definitions : Definitions) : List String :=
  definitions.structs.map Struct.name ++ definitions.inputs.map (·.struct.name)
    ++ definitions.outputs.map Output.name

theorem names_append_perm (first second : Definitions) :
    (first ++ second).names.Perm (first.names ++ second.names) := by
  simp only [names, structs_append, inputs_append, outputs_append, List.map_append]
  grind

end Definitions

variable
  {registry : Registry}
  {index : TypeIndex}
  {definitions : Definitions}

/-- The struct of an object at the start of a walk has the given name, and those that the walk
leaves behind have the names of the objects inside. -/
theorem names_convertRoot
    [Name.Lettering]
    {name : String}
    {path : FieldPath}
    {node : Node}
    {struct : Struct}
    {emission : Emission}
    (made : convertRoot registry index name path node = .ok (struct, emission)) :
    struct.name = name ∧ AreNames name emission.names fun object =>
      ∃ inner ∈ held node, WritesOut registry [⟨node, node⟩] inner object := by
  cases node with
  | scalar | array => cases made
  | object declaration facets children =>
      obtain ⟨named, inside⟩ := (named_conversion registry index).1 _ _ _ _ _ _ _ made
      refine ⟨named, (inside name (List.cons_ne_nil _ _) rfl).of_iff fun object => ?_⟩
      simp [Node.mem_sorted]

theorem names_convertEntry
    [Name.Lettering]
    {id : String}
    (made : convertEntry registry index id = .ok definitions) :
    AreNamesOf registry index [.entry id] definitions.names := by
  obtain ⟨root, struct, emission, found, converted, rfl⟩ := exists_of_convertEntry made
  obtain ⟨named, inside⟩ := names_convertRoot converted
  refine .singleton (inside.of_iff (Root.StartsAt.entry found).inside_iff) ?_
  simp only [Definitions.names, Emission.definitions, Emission.structs_append, List.map_append,
    List.map_cons, List.map_nil, List.append_nil, named]
  exact List.perm_append_singleton _ _

theorem names_convertInput
    [Name.Lettering]
    {lead : String}
    {function : Function}
    (made : convertInput registry index lead function = .ok definitions) :
    AreNamesOf registry index [.input lead function] definitions.names := by
  obtain ⟨taken, struct, emission, itemized, converted, rfl⟩ := exists_of_convertInput made
  obtain ⟨named, inside⟩ := names_convertRoot converted
  refine .singleton (inside.of_iff (Root.StartsAt.input itemized).inside_iff) ?_
  simp only [Definitions.names, Emission.definitions, inputOf, List.map_cons, List.map_nil,
    List.append_nil, named]
  exact List.perm_append_singleton _ _

theorem names_convertOutput
    [Name.Lettering]
    {lead : String}
    {path : FieldPath}
    {node : Node}
    (made : convertOutput registry index (lead ++ "Output") path node = .ok definitions) :
    AreNamesOf registry index [.output lead node] definitions.names := by
  obtain ⟨canonical, documentation, emission, resolved,
    ⟨isStruct, struct, converted, rfl⟩ | ⟨isAlias, target, converted, rfl⟩⟩ :=
      exists_canonical_of_convertOutput made
  · obtain ⟨named, inside⟩ := names_convertRoot converted
    have plain : node.reference? = none := by
      simpa [Node.isReference] using (Bool.and_eq_true_iff.mp isStruct).2
    have opens : Opens registry node node :=
      ⟨Registry.resolveAt_of_reference?_none registry _ plain, fun closed => by
        simp [Node.isReference, plain] at closed⟩
    refine .singleton (inside.of_iff (Root.StartsAt.output opens).inside_iff) ?_
    simp only [Definitions.names, Emission.definitions, Output.name, List.map_cons, List.map_nil,
      List.append_nil, named]
    exact List.perm_append_singleton _ _
  · have noObject : ∀ other, Opens registry node other → other.isObject = false := by
      rintro other ⟨found, unnamed⟩
      cases (Registry.resolveAt_eq_ok_iff.mp resolved).symm.trans found
      by_contra isObject
      rw [Bool.not_eq_false] at isObject
      rw [isObject, Bool.true_and, Bool.not_eq_false'] at isAlias
      exact unnamed ⟨isAlias, isObject⟩
    have inside := (named_conversion registry index).2.1 _ _ _ _ _ _ _ converted
      (lead ++ "Output") rfl fun _ => noObject
    refine .singleton (inside.of_iff fun object => ?_) ?_
    · constructor
      · rintro ⟨place, starts, further⟩
        cases starts with
        | output opens => exact (writesOut_iff opens object).mpr (.inr further)
      · intro written
        cases written with
        | here opens isObject => exact absurd isObject (Bool.eq_false_iff.mp (noObject _ opens))
        | inside opens member further => exact ⟨_, .output opens, _, member, further⟩
    · simp only [Definitions.names, Emission.definitions, Output.name, List.map_cons,
        List.map_nil, List.append_nil]
      exact List.perm_append_singleton _ _

/-- What a function takes, and what it returns if it returns something. -/
def functionRoots (lead : String) (function : Function) : List Root :=
  .input lead function :: function.output.toList.map (Root.output lead)

theorem names_convertFunction
    [Name.Lettering]
    {namespaceType : String}
    {function : Function}
    (made : convertFunction registry index namespaceType function = .ok definitions) :
    AreNamesOf registry index (functionRoots (Name.nested namespaceType function.name) function)
      definitions.names := by
  obtain ⟨input, convertedInput, made⟩ := bind_eq_ok_iff.mp made
  have ofInput := names_convertInput convertedInput
  unfold functionRoots
  cases returned : function.output with
  | none =>
      rw [returned] at made
      cases made
      exact ofInput
  | some node =>
      rw [returned] at made
      obtain ⟨output, convertedOutput, made⟩ := bind_eq_ok_iff.mp made
      cases made
      exact (ofInput.append (names_convertOutput convertedOutput)).of_perm
        (Definitions.names_append_perm input output)

theorem names_convertFunctions
    [Name.Lettering]
    {namespaceType : String}
    {functions : List (OperationKind × Function)}
    (made : convertFunctions registry index namespaceType functions = .ok definitions) :
    AreNamesOf registry index
      (functions.flatMap fun (_, function) =>
        functionRoots (Name.nested namespaceType function.name) function)
      definitions.names := by
  induction functions generalizing definitions with
  | nil =>
      cases made
      exact .nil
  | cons function rest hypothesis =>
      obtain ⟨first, converted, made⟩ := bind_eq_ok_iff.mp made
      obtain ⟨others, convertedRest, made⟩ := bind_eq_ok_iff.mp made
      cases made
      exact ((names_convertFunction converted).append (hypothesis convertedRest)).of_perm
        (Definitions.names_append_perm first others)

/-- What a client names by itself. -/
def Request.roots [Name.Lettering] : Request → List Root
  | .entry id => [.entry id]
  | .managed owner => .entry owner.schema :: owner.functions.flatMap fun (_, function) =>
      functionRoots (Name.nested (Name.typeName owner.name) function.name) function

/-- A client declares one name for each of its roots and for each object that is written out
inside one, by the naming rule. -/
theorem names_convert
    [Name.Lettering]
    {request : Request}
    (made : request.convert registry index = .ok definitions) :
    AreNamesOf registry index request.roots definitions.names := by
  cases request with
  | entry id => exact names_convertEntry made
  | managed owner =>
      obtain ⟨entry, convertedEntry, made⟩ := bind_eq_ok_iff.mp made
      obtain ⟨others, convertedFunctions, made⟩ := bind_eq_ok_iff.mp made
      cases made
      exact ((names_convertEntry convertedEntry).append
        (names_convertFunctions convertedFunctions)).of_perm
          (Definitions.names_append_perm entry others)

end Client
end SchemaCompiler
