import SchemaCompiler.Name.Standard
import SchemaCompiler.Proofs.Registry.Nesting
import SchemaCompiler.Proofs.Resource.Levels

/-!
# Attributes of an expanded tree

The walk that expands every reference lists a tree flat, and the conversion builds a tree of
attributes, with the elements of a list folded into the attribute of the list. In pre-order the
attributes are those of the fields that the walk lists, each once and in the same order.
-/

namespace SchemaCompiler
namespace Resource

open SchemaCompiler.Outcome
open SchemaCompiler.Schema
open SchemaCompiler.Schema.Visit (Deeper Shallower fieldsWithin haveNestedArrays)

/-! ## Attributes in pre-order -/

namespace Attribute

mutual

/-- The attribute and all inside it in pre-order. -/
def preorder : Attribute → List Attribute
  | .plain facts type => [.plain facts type]
  | .nested facts nesting attributes => .nested facts nesting attributes :: preorderAll attributes

/-- Attributes and all inside them in pre-order. -/
def preorderAll : List Attribute → List Attribute
  | [] => []
  | first :: rest => preorder first ++ preorderAll rest

end

mutual

/-- The number of attributes of a tree is the length of its pre-order list. -/
theorem length_preorder : ∀ shown : Attribute, shown.preorder.length = shown.count
  | .plain facts type => by
      rw [preorder, count]
      rfl
  | .nested facts nesting attributes => by
      rw [preorder, count, List.length_cons, length_preorderAll attributes]

theorem length_preorderAll :
    ∀ attributes : List Attribute, (preorderAll attributes).length = countAll attributes
  | [] => by
      rw [preorderAll, countAll]
      rfl
  | first :: rest => by
      rw [preorderAll, countAll, List.length_append, length_preorder first,
        length_preorderAll rest]

end

theorem preorder_eq (shown : Attribute) :
    shown.preorder = shown :: preorderAll shown.children := by
  cases shown with
  | plain facts type => rw [preorder, children, preorderAll]
  | nested facts nesting attributes => rw [preorder, children]

end Attribute

/-- An attribute with the path and the node of its field. -/
structure Placed where
  path : FieldPath
  node : Node
  shown : Attribute

/-- The fields whose attributes are inside that of a field, by display name. -/
def openedChildren [Name.Lettering] (registry : Registry) (node : Node) : List Node :=
  ((openedObject? registry node).map Object.sortedChildren).getD []

mutual

/-- The attribute of a field and all inside it, each with its field. -/
def placed
    [Name.Lettering]
    (registry : Registry)
    (path : FieldPath)
    (node : Node) : Attribute → List Placed
  | .plain facts type => [⟨path, node, .plain facts type⟩]
  | .nested facts nesting attributes =>
      ⟨path, node, .nested facts nesting attributes⟩
        :: placedAll registry path (openedChildren registry node) attributes

/-- The attributes of the fields of an object and all inside them, each with its field. -/
def placedAll [Name.Lettering] (registry : Registry) (path : FieldPath) (children : List Node) :
    List Attribute → List Placed
  | [] => []
  | first :: others =>
      match children with
      | [] => []
      | child :: rest =>
          placed registry (path.child child.name) child first
            ++ placedAll registry path rest others

end

section Placed

variable
  {registry : Registry}
  {path : FieldPath}

@[simp] theorem placedAll_nil [Name.Lettering] (children : List Node) :
    placedAll registry path children [] = [] := by
  rw [placedAll]

@[simp] theorem placedAll_cons
    [Name.Lettering]
    (child : Node)
    (rest : List Node)
    (first : Attribute)
    (others : List Attribute) :
    placedAll registry path (child :: rest) (first :: others) =
      placed registry (path.child child.name) child first
        ++ placedAll registry path rest others := by
  rw [placedAll]

theorem placed_eq
    [Name.Lettering]
    (node : Node)
    (shown : Attribute) :
    placed registry path node shown =
      ⟨path, node, shown⟩
        :: placedAll registry path (openedChildren registry node) shown.children := by
  cases shown with
  | plain facts type => rw [placed, Attribute.children, placedAll_nil]
  | nested facts nesting attributes => rw [placed, Attribute.children]

end Placed

/-- The attribute is what the field converts to at its path, with the check of a group. -/
def Placed.Made [Name.Lettering] (registry : Registry) (placed : Placed) : Prop :=
  ∃ usage groups converted,
    registry.convertField placed.path usage placed.node = some (.ok converted) ∧
      placed.shown = addGroup groups placed.node.name converted

/-- A converted attribute has the display name of its field. -/
theorem Placed.Made.name_eq
    [Name.Lettering]
    {registry : Registry}
    {placed : Placed}
    (made : placed.Made registry) :
    placed.shown.facts.name = placed.node.snakeName := by
  obtain ⟨usage, groups, converted, convertedField, same⟩ := made
  rw [same, name_addGroup, name_of_convertField convertedField]

/-! ## Fields of a walk -/

/-- The attributes stand for the fields of a walk one by one, each with its field. -/
structure Mirrors
    [Name.Lettering]
    (registry : Registry)
    (fields : List Visit)
    (entries : List Placed)
    (attributes : List Attribute) : Prop where
  places : (entries.map fun entry => (entry.path, entry.node)) =
    fields.map fun visit => (visit.path, visit.node)
  attributes : entries.map Placed.shown = attributes
  made : ∀ entry ∈ entries, entry.Made registry

namespace Mirrors

variable
  {registry : Registry}
  {fields others : List Visit}
  {entries later : List Placed}
  {attributes more : List Attribute}

theorem nil [Name.Lettering] : Mirrors registry [] [] [] := ⟨rfl, rfl, List.forall_mem_nil _⟩

/-- Fields one after the other. -/
theorem append
    [Name.Lettering]
    (first : Mirrors registry fields entries attributes)
    (second : Mirrors registry others later more) :
    Mirrors registry (fields ++ others) (entries ++ later) (attributes ++ more) where
  places := by rw [List.map_append, List.map_append, first.places, second.places]
  attributes := by rw [List.map_append, first.attributes, second.attributes]
  made := List.forall_mem_append.mpr ⟨first.made, second.made⟩

/-- A field with what is inside it. -/
theorem cons
    [Name.Lettering]
    {visit : Visit}
    {entry : Placed}
    (path : entry.path = visit.path)
    (node : entry.node = visit.node)
    (made : entry.Made registry)
    (inside : Mirrors registry fields entries attributes) :
    Mirrors registry (visit :: fields) (entry :: entries) (entry.shown :: attributes) where
  places := by rw [List.map_cons, List.map_cons, inside.places, path, node]
  attributes := by rw [List.map_cons, inside.attributes]
  made := List.forall_mem_cons.mpr ⟨made, inside.made⟩

end Mirrors

/-- The places make what is right inside them a field. -/
structure Holds (depth : Nat) (around : List Visit) : Prop where
  shallower : Shallower depth around
  areAroundField : Visit.areAroundField around = true

/-- Wherever children are fields, their attributes stand for the fields that the walk over them
lists. -/
def Mirrored
    [Name.Lettering]
    (registry : Registry)
    (path : FieldPath)
    (depth : Nat)
    (children : List Node)
    (visits : List Visit) : Prop :=
  ∀ around groups usage attributes,
    Holds depth around →
    registry.convertFields path groups usage children = some (.ok attributes) →
    Mirrors registry (fieldsWithin around visits) (placedAll registry path children attributes)
      (Attribute.preorderAll attributes)

/-- What a walk lists below a canonical node: nothing, the children of an object, or the element
of an array and what is below that. -/
inductive Content
    [Name.Lettering]
    (registry : Registry)
    (path : FieldPath) : Nat → Node → List Visit → Prop
  | scalar {depth : Nat} {declaration : Declaration} {facets : Scalar} :
      Content registry path depth (.scalar declaration facets) []
  | object
      {depth : Nat}
      {declaration : Declaration}
      {facets : ObjectFacets}
      {children : List Node}
      {below : List Visit} :
      Mirrored registry path (depth + 1) (Node.sorted children) below →
      Content registry path depth (.object declaration facets children) below
  | array
      {depth : Nat}
      {declaration : Declaration}
      {facets : ArrayFacets}
      {element inner : Node}
      {below : List Visit} :
      registry.resolveAt path element = .ok inner →
      Deeper (depth + 2) below →
      Content registry path (depth + 1) inner below →
      Content registry path depth (.array declaration facets element)
        (⟨path, element, inner, depth + 1, false⟩ :: below)

namespace Holds

variable
  {depth : Nat}
  {around : List Visit}
  {visit element : Visit}

/-- Places that make what is inside them a field start with one that is no array. -/
theorem exists_parent (holds : Holds depth around) :
    ∃ parent rest, around = parent :: rest ∧ parent.isArray = false ∧
      haveNestedArrays (parent :: rest) = false := by
  have field := holds.areAroundField
  cases around with
  | nil => cases field
  | cons parent rest =>
      rw [Visit.areAroundField, Bool.and_eq_true, Bool.not_eq_true', Bool.not_eq_true'] at field
      exact ⟨parent, rest, rfl, field⟩

/-- What is right inside a field that is no array is a field. -/
theorem inside
    (holds : Holds depth around)
    (same : visit.depth = depth)
    (plain : visit.isArray = false) :
    Holds (depth + 1) (visit :: around) where
  shallower := holds.shallower.cons (by omega) (by omega)
  areAroundField := by
    obtain ⟨parent, rest, rfl, -, flat⟩ := holds.exists_parent
    simp [Visit.areAroundField, haveNestedArrays, plain, flat]

/-- So is what is right inside an element that is no array. -/
theorem insideElement
    (holds : Holds depth around)
    (same : visit.depth = depth)
    (sameElement : element.depth = depth + 1)
    (plain : element.isArray = false) :
    Holds (depth + 2) (element :: visit :: around) where
  shallower := Shallower.cons (holds.shallower.cons (by omega) (by omega)) (Nat.le_succ (depth + 1))
    (by omega)
  areAroundField := by
    obtain ⟨parent, rest, rfl, parentPlain, flat⟩ := holds.exists_parent
    simp [Visit.areAroundField, haveNestedArrays, plain, parentPlain, flat]

/-- An element of a field is no field. -/
theorem fieldsWithin_element
    {below : List Visit}
    (holds : Holds depth around)
    (same : visit.depth = depth)
    (isArray : visit.isArray = true)
    (sameElement : element.depth = depth + 1) :
    fieldsWithin (visit :: around) (element :: below) =
      fieldsWithin (element :: visit :: around) below := by
  have shallower : Shallower element.depth (visit :: around) :=
    holds.shallower.cons (by omega) (by omega)
  rw [Visit.fieldsWithin_cons shallower, Visit.areAroundField, isArray]
  rfl

/-- Nothing inside an element that is an array is a field. -/
theorem fieldsWithin_row
    {below : List Visit}
    (holds : Holds depth around)
    (same : visit.depth = depth)
    (isArray : visit.isArray = true)
    (sameElement : element.depth = depth + 1)
    (isRow : element.isArray = true)
    (deeper : Deeper (depth + 2) below) :
    fieldsWithin (element :: visit :: around) below = [] := by
  have nested : haveNestedArrays (element :: visit :: around) = true := by
    rw [haveNestedArrays, isRow, isArray]
    rfl
  have shallower : Shallower (depth + 1) (visit :: around) :=
    holds.shallower.cons (by omega) (by omega)
  exact Visit.fieldsWithin_eq_nil nested (shallower.cons (Nat.le_succ _) (by omega))
    (Visit.deeper_nil _) deeper

end Holds

section Steps

variable
  {registry : Registry}
  {path : FieldPath}
  {depth : Nat}
  {around : List Visit}
  {node canonical : Node}
  {usage : FieldUsage}
  {shown : Attribute}
  {below : List Visit}

theorem openedChildren_of_object
    [Name.Lettering]
    {declaration : Declaration}
    {facets : ObjectFacets}
    {children : List Node}
    (resolved : registry.resolve node = .ok (.object declaration facets children)) :
    openedChildren registry node = Node.sorted children := by
  rw [openedChildren, openedObject?_of_object resolved]
  rfl

theorem openedChildren_of_listOfObjects
    [Name.Lettering]
    {declaration innerDeclaration : Declaration}
    {facets : ArrayFacets}
    {innerFacets : ObjectFacets}
    {element : Node}
    {children : List Node}
    (resolved : registry.resolve node = .ok (.array declaration facets element))
    (resolvedElement :
      registry.resolve element = .ok (.object innerDeclaration innerFacets children)) :
    openedChildren registry node = Node.sorted children := by
  rw [openedChildren, openedObject?_of_listOfObjects resolved resolvedElement]
  rfl

/-- Inside the attribute of a field are those of the fields that the walk lists below it. -/
theorem mirrors_inside
    [Name.Lettering]
    {facts : AttributeFacts}
    (holds : Holds depth around)
    (resolved : registry.resolveAt path node = .ok canonical)
    (content : Content registry path depth canonical below)
    (converts : Converts registry path usage facts canonical shown) :
    Mirrors registry (fieldsWithin (⟨path, node, canonical, depth, false⟩ :: around) below)
      (placedAll registry path (openedChildren registry node) shown.children)
      (Attribute.preorderAll shown.children) := by
  have resolvedAnywhere := Registry.resolveAt_eq_ok_iff.mp resolved
  cases converts with
  | scalar declaration facets =>
      cases content
      rw [scalarAttribute, Attribute.children, placedAll_nil, Attribute.preorderAll]
      exact .nil
  | object inner =>
      cases content with
      | object mirrored =>
          rw [openedChildren_of_object resolvedAnywhere]
          exact mirrored _ _ _ _ (holds.inside rfl rfl) inner
  | listOfObjects resolvedElement inner =>
      cases content with
      | array resolvedThere deeper content =>
          cases resolvedElement.symm.trans resolvedThere
          cases content with
          | object mirrored =>
              rw [openedChildren_of_listOfObjects resolvedAnywhere
                (Registry.resolveAt_eq_ok_iff.mp resolvedElement),
                holds.fieldsWithin_element rfl rfl rfl]
              exact mirrored _ _ _ _ (holds.insideElement rfl rfl rfl) inner
  | list resolvedElement plain found =>
      rw [listAttribute, Attribute.children, placedAll_nil, Attribute.preorderAll]
      cases content with
      | array resolvedThere deeper content =>
          cases resolvedElement.symm.trans resolvedThere
          rw [holds.fieldsWithin_element rfl rfl rfl]
          cases content with
          | scalar => exact .nil
          | object mirrored => cases plain
          | array resolvedInner deeperInner contentInner =>
              rw [holds.fieldsWithin_row rfl rfl rfl rfl deeper]
              exact .nil

/-- The attribute of a field and those inside it are those of the place of the field and of the
fields that the walk lists below it. -/
theorem mirrors_field
    [Name.Lettering]
    (holds : Holds depth around)
    (resolved : registry.resolveAt path node = .ok canonical)
    (content : Content registry path depth canonical below)
    (converted : registry.convertField path usage node = some (.ok shown))
    (groups : List (List String)) :
    Mirrors registry (fieldsWithin around (⟨path, node, canonical, depth, false⟩ :: below))
      (placed registry path node (addGroup groups node.name shown))
      (addGroup groups node.name shown).preorder := by
  obtain ⟨facts, other, opened, converts⟩ := convertField_eq_ok converted
  have same := (openField_eq_ok opened).1
  cases (Registry.resolveAt_eq_ok_iff.mp resolved).symm.trans same
  have inside := mirrors_inside holds resolved content converts
  rw [Visit.fieldsWithin_cons holds.shallower, if_pos holds.areAroundField, placed_eq,
    Attribute.preorder_eq, children_addGroup]
  exact .cons rfl rfl ⟨usage, groups, shown, converted, rfl⟩ inside

end Steps

/-- Below every node that a walk comes through are the places that its canonical node asks for. -/
theorem content_of_walk [Name.Lettering] (registry : Registry) :
    (∀ stack path depth node visits,
      registry.visit .expanded stack path depth node = .ok visits →
        ∃ canonical below,
          registry.resolveAt path node = .ok canonical ∧
            visits = ⟨path, node, canonical, depth, false⟩ :: below ∧
            Deeper (depth + 1) below ∧
            Content registry path depth canonical below) ∧
    ∀ stack path depth canonical below,
      registry.descend .expanded stack path depth canonical = .ok below →
        Content registry path depth canonical below := by
  apply Registry.expanded_induct registry fun stack path depth children =>
    ∀ visits, registry.visitAll .expanded stack path depth children = .ok visits →
      Mirrored registry path depth children visits
  case plain =>
    intro stack path depth node plain content visits walked
    rw [Registry.visit_of_plain plain, bind_eq_ok_iff] at walked
    obtain ⟨below, walked, made⟩ := walked
    cases made
    exact ⟨node, below, Registry.resolveAt_of_reference?_none registry path plain, rfl,
      (Registry.deeper_of_walk registry).2 _ _ _ _ _ walked, content below walked⟩
  case unresolved =>
    intro stack path depth node id cause named failed visits walked
    rw [Registry.visit_of_unresolved named failed] at walked
    cases walked
  case inside =>
    intro stack path depth node id canonical named resolved inside visits walked
    rw [Registry.visit_of_inside named resolved inside] at walked
    cases walked
  case opened =>
    intro stack path depth node id canonical named resolved outside content visits walked
    rw [Registry.visit_of_opened named resolved outside, bind_eq_ok_iff] at walked
    obtain ⟨below, walked, made⟩ := walked
    cases made
    refine ⟨canonical, below, ?_, rfl, (Registry.deeper_of_walk registry).2 _ _ _ _ _ walked,
      content below walked⟩
    rw [Registry.resolveAt, named]
    exact resolved
  case scalar =>
    intro stack path depth declaration facets below walked
    rw [Registry.descend_scalar] at walked
    cases walked
    exact .scalar
  case array =>
    intro stack path depth declaration facets element hypothesis visits walked
    rw [Registry.descend_array] at walked
    obtain ⟨inner, below, resolved, rfl, deeper, content⟩ := hypothesis visits walked
    exact .array resolved deeper content
  case object =>
    intro stack path depth declaration facets children hypothesis visits walked
    rw [Registry.descend_object] at walked
    exact .object (hypothesis visits walked)
  case nil =>
    intro stack path depth visits walked around groups usage attributes holds converted
    rw [Registry.visitAll_nil] at walked
    rw [Registry.convertFields] at converted
    cases walked
    cases converted
    rw [placedAll_nil, Attribute.preorderAll]
    exact .nil
  case cons =>
    intro stack path depth child rest first others visits walked around groups usage attributes
      holds converted
    obtain ⟨own, later, walkedFirst, walkedRest, rfl⟩ := Registry.exists_of_visitAll_cons walked
    obtain ⟨shown, more, convertedFirst, convertedRest, rfl⟩ :=
      exists_of_convertFields_cons converted
    have deeper := (Registry.deeper_of_walk registry).1 _ _ _ _ _ walkedFirst
    obtain ⟨canonical, below, resolved, rfl, -, content⟩ := first own walkedFirst
    rw [Visit.fieldsWithin_append holds.shallower deeper
      (Registry.depth_of_head?_visitAll walkedRest), placedAll_cons, Attribute.preorderAll]
    exact (mirrors_field holds resolved content convertedFirst groups).append
      (others later walkedRest around groups usage more holds convertedRest)

/-- The attributes of a schema in pre-order, each with its field below the managed entry. -/
def ResourceSchema.placed
    [Name.Lettering]
    (registry : Registry)
    (root : Node)
    (schema : ResourceSchema) : List Placed :=
  placedAll registry FieldPath.root (openedChildren registry root) schema.attributes

/-- The attributes of a schema stand for the fields of the expanded tree. In pre-order, each with
the path of internal names of its field, they are the places that the walk lists, without the
top, the elements of arrays and what is below an array that is an element. Each is what its field
converts to and has its display name, and there are as many as there are such places. -/
theorem attributes_mirror_fields
    [Name.Lettering]
    {registry : Registry}
    {usage : UsageIndex}
    {managed : Namespace}
    {schema : ResourceSchema}
    {root : Node}
    (found : registry.root managed.schema = .ok root)
    (plain : root.isReference = false)
    (converted : ofNamespace registry usage managed = some (.ok schema)) :
    ∃ visits, registry.collect .expanded root = .ok visits ∧
      ((schema.placed registry root).map fun entry => (entry.path, entry.node)) =
        (Visit.fields visits).map (fun visit => (visit.path, visit.node)) ∧
      (schema.placed registry root).map Placed.shown =
        Attribute.preorderAll schema.attributes ∧
      (∀ entry ∈ schema.placed registry root,
        entry.Made registry ∧ entry.shown.facts.name = entry.node.snakeName) ∧
      schema.attributeCount = (Visit.fields visits).length := by
  obtain ⟨declaration, facets, children, visits, foundToo, walked, fields⟩ :=
    exists_of_ofNamespace converted
  obtain rfl : root = .object declaration facets children :=
    Except.ok.inj (found.symm.trans foundToo)
  have unnamed : (Node.object declaration facets children).reference? = none :=
    Option.not_isSome_iff_eq_none.mp (Bool.eq_false_iff.mp plain)
  have resolved := Registry.resolveAt_of_reference?_none registry FieldPath.root unnamed
  have mirrors : Mirrors registry (Visit.fields visits)
      (schema.placed registry (.object declaration facets children))
      (Attribute.preorderAll schema.attributes) := by
    rw [ResourceSchema.placed,
      openedChildren_of_object (Registry.resolveAt_eq_ok_iff.mp resolved)]
    have descended := walked
    rw [Registry.collect, resolved, ok_bind, bind_eq_ok_iff] at descended
    obtain ⟨below, descended, made⟩ := descended
    cases made
    rw [Visit.fields, Visit.fieldsWithin_cons (List.forall_mem_nil _)]
    cases (content_of_walk registry).2 _ _ _ _ _ descended with
    | object mirrored =>
        refine mirrored _ _ _ _ ⟨?_, rfl⟩ fields
        exact List.forall_mem_singleton.mpr Nat.zero_lt_one
  refine ⟨visits, walked, mirrors.places, mirrors.attributes, ?_, ?_⟩
  · exact fun entry member => ⟨mirrors.made entry member, (mirrors.made entry member).name_eq⟩
  · rw [ResourceSchema.attributeCount, ← Attribute.length_preorderAll, ← mirrors.attributes,
      List.length_map, ← List.length_map (fun entry : Placed => (entry.path, entry.node)),
      mirrors.places, List.length_map]

/-! ## Lists and lists of lists -/

/-- A text. -/
def labelField : Node := .scalar { name := "label" } (.string {})

/-- An object with a text. -/
def cardObject : Node := .object {} {} [labelField]

/-- A list of such objects. -/
def cardsField : Node := .array { name := "cards" } {} cardObject

/-- A list of lists of them. -/
def gridField : Node := .array { name := "grid" } {} (.array {} {} cardObject)

/-- An entry with both. -/
def boardEntry : Node := .object { name := "board" } {} [cardsField, gridField]

/-- The entry alone. -/
def boardRegistry : Registry := ⟨.ofList [("board", boardEntry)]⟩

/-- A namespace that manages the entry. -/
def boardNamespace : Namespace := { name := "Board", schema := "board" }

theorem sorted_boardEntry : Node.sorted [cardsField, gridField] = [cardsField, gridField] :=
  List.mergeSort_of_pairwise (by decide)

theorem sorted_cardObject : Node.sorted [labelField] = [labelField] :=
  List.mergeSort_singleton labelField

theorem descend_cardObject
    (stack : List String)
    (path : FieldPath)
    (depth : Nat) :
    boardRegistry.descend .expanded stack path depth cardObject =
      .ok [⟨path.child "label", labelField, labelField, depth + 1, false⟩] := by
  rw [cardObject, Registry.descend_object, sorted_cardObject, Registry.visitAll_cons,
    Registry.visit_of_plain rfl, labelField, Registry.descend_scalar, Registry.visitAll_nil]
  rfl

/-- The walk over the entry lists the texts in both lists; those in the list of lists are no
fields. -/
theorem collect_boardRegistry :
    ∃ visits, boardRegistry.collect .expanded boardEntry = .ok visits ∧
      (Visit.fields visits).map (fun visit => visit.path.names) =
        [["cards"], ["cards", "label"], ["grid"]] := by
  have resolved : boardRegistry.resolveAt FieldPath.root boardEntry = .ok boardEntry := rfl
  have noneOpen : boardEntry.reference?.toList = [] := rfl
  unfold Registry.collect
  rw [resolved, ok_bind, noneOpen, boardEntry, Registry.descend_object, sorted_boardEntry,
    Registry.visitAll_cons, Registry.visit_of_plain rfl, cardsField, Registry.descend_array,
    Registry.visit_of_plain rfl, descend_cardObject, Registry.visitAll_cons,
    Registry.visit_of_plain rfl, gridField, Registry.descend_array, Registry.visit_of_plain rfl,
    Registry.descend_array, Registry.visit_of_plain rfl, descend_cardObject,
    Registry.visitAll_nil]
  exact ⟨_, rfl, by decide⟩

/-- Both lists convert. -/
theorem convertField_boardRegistry
    (path : FieldPath)
    {child : Node}
    (member : child ∈ [cardsField, gridField]) :
    ∃ shown, boardRegistry.convertField path .inputOnly child = some (.ok shown) := by
  have resolvedGrid : boardRegistry.resolveAt path (.array {} {} cardObject) =
      .ok (.array {} {} cardObject) := rfl
  have resolvedCard : boardRegistry.resolveAt path cardObject = .ok cardObject := rfl
  obtain ⟨attributes, inner⟩ : ∃ attributes,
      boardRegistry.convertFields path [] (fun _ => .inputOnly) (Node.sorted [labelField]) =
        some (.ok attributes) := by
    rw [sorted_cardObject]
    refine exists_convertFields path [] fun child member place => ?_
    rw [List.mem_singleton.mp member]
    exact ⟨_, convertField_of_scalar rfl⟩
  have opened : ∀ node, node ∈ [cardsField, gridField] → ∃ facts,
      openField boardRegistry path .inputOnly node = .ok (facts, node) := by
    intro node member
    rcases List.mem_pair.mp member with rfl | rfl <;> exact ⟨_, rfl⟩
  obtain ⟨facts, opened⟩ := opened child member
  rw [Registry.convertField, opened]
  dsimp only
  rcases List.mem_pair.mp member with rfl | rfl
  · rw [cardsField, Registry.convertCanonical, resolvedCard, cardObject]
    dsimp only
    rw [inner]
    exact ⟨_, rfl⟩
  · rw [gridField, Registry.convertCanonical, resolvedGrid]
    dsimp only
    rw [Registry.elementType, resolvedCard, cardObject]
    dsimp only
    rw [Registry.elementType]
    exact ⟨_, rfl⟩

/-- The entry has three attributes: the two lists, and the text of the first. -/
theorem attributes_mirror_fields_boardRegistry :
    ∃ schema,
      ofNamespace boardRegistry ⟨.empty, .empty⟩ boardNamespace = some (.ok schema) ∧
        (schema.placed boardRegistry boardEntry).map (fun entry => entry.path.names) =
          [["cards"], ["cards", "label"], ["grid"]] ∧
        schema.attributeCount = 3 := by
  have found : boardRegistry.root boardNamespace.schema = .ok boardEntry := rfl
  obtain ⟨visits, walked, names⟩ := collect_boardRegistry
  have each : ∀ child ∈ [cardsField, gridField], ∀ place, ∃ shown,
      boardRegistry.convertField place (UsageIndex.usage ⟨.empty, .empty⟩ child.name) child =
        some (.ok shown) := fun child member place => convertField_boardRegistry place member
  obtain ⟨schema, converted, -⟩ := exists_ofNamespace found walked each
  obtain ⟨again, walkedAgain, places, -, -, count⟩ := attributes_mirror_fields found rfl converted
  cases walked.symm.trans walkedAgain
  refine ⟨schema, converted, ?_, ?_⟩
  · have paths := congrArg (List.map fun place => place.1.names) places
    rw [List.map_map, List.map_map] at paths
    exact paths.trans names
  · rw [count, ← List.length_map fun visit : Visit => visit.path.names, names]
    rfl

end Resource
end SchemaCompiler
