import SchemaCompiler.Proofs.Client.Assembly
import SchemaCompiler.Proofs.Registry.References

/-!
# Structs of a client entry

Every struct that the client of an entry declares is that of an object which the entry holds in
place: its parts are the children of the object by display name, and each part brings the key
methods of its own secret. Whether a part has a secret depends on what its node stands for and
on nothing around it.
-/

namespace SchemaCompiler
namespace Client

open SchemaCompiler.Key (Form Place Position)
open SchemaCompiler.Outcome
open SchemaCompiler.Schema

/-! ## Secrets of a field -/

/-- Where a field has a secret that is stored by key. -/
inductive SecretPlace where
  | value
  | element
deriving Repr, DecidableEq

/-- The place of the secret of a field, if it has one: the field stands for a secret, or for a
list whose elements do. -/
def secretPlace? (registry : Registry) (node : Node) : Option SecretPlace := do
  let canonical ← (registry.resolve node).toOption
  match canonical.element? with
  | some element =>
      let inner ← (registry.resolve element).toOption
      if inner.isEncrypted then some .element else none
  | none => if canonical.isEncrypted then some .value else none

section Secrets

variable
  {registry : Registry}
  {node canonical : Node}

/-- The secret of a list is in its elements. -/
theorem secretPlace?_of_element
    {element inner : Node}
    (resolved : registry.resolve node = .ok canonical)
    (list : canonical.element? = some element)
    (resolvedElement : registry.resolve element = .ok inner) :
    secretPlace? registry node = if inner.isEncrypted then some .element else none := by
  simp [secretPlace?, resolved, list, resolvedElement]

/-- The secret of any other field is its value. -/
theorem secretPlace?_of_value
    (resolved : registry.resolve node = .ok canonical)
    (noList : canonical.element? = none) :
    secretPlace? registry node = if canonical.isEncrypted then some .value else none := by
  simp [secretPlace?, resolved, noList]

/-- A secret has one method for each form. -/
theorem map_form_of_keyMethods
    {field : String}
    {position : Position}
    {methods : List KeyMethod}
    (derived : keyMethods registry field position = .ok methods) :
    methods.map KeyMethod.form = Form.all := by
  simp only [keyMethods, Form.all, List.mapM_cons, List.mapM_nil, bind_assoc, pure_bind] at derived
  obtain ⟨plain, -, derived⟩ := bind_eq_ok_iff.mp derived
  obtain ⟨encrypted, -, derived⟩ := bind_eq_ok_iff.mp derived
  cases derived
  rfl

/-- A field has a method for each form if it has a secret, and no methods if it has none. -/
theorem map_form_of_fieldKeyMethods
    {path : FieldPath}
    {field : String}
    {enclosing : List Place}
    {methods : List KeyMethod}
    (resolved : registry.resolve node = .ok canonical)
    (derived : fieldKeyMethods registry path field ⟨⟨node, canonical⟩, enclosing⟩ = .ok methods) :
    methods.map KeyMethod.form =
      if (secretPlace? registry node).isSome then Form.all else [] := by
  cases canonical with
  | array declaration facets element =>
      obtain ⟨inner, resolvedElement, derived⟩ := bind_eq_ok_iff.mp derived
      rw [secretPlace?_of_element resolved rfl (Registry.resolveAt_eq_ok_iff.mp resolvedElement)]
      split at derived
      next secret => simpa [secret] using map_form_of_keyMethods derived
      next plain =>
        cases derived
        simp [plain]
  | scalar declaration facets =>
      rw [secretPlace?_of_value resolved rfl]
      dsimp only [fieldKeyMethods, Position.canonical] at derived
      split at derived
      next secret => simpa [secret] using map_form_of_keyMethods derived
      next plain =>
        cases derived
        simp [plain]
  | object declaration facets children =>
      rw [secretPlace?_of_value resolved rfl]
      cases derived
      rfl

end Secrets

/-! ## Parts of a struct -/

/-- A child of an object with the key methods that it brings to the struct. -/
structure Part where
  node : Node
  keyMethods : List KeyMethod

/-- The key methods of the part are derived at its node, in some place. -/
def Part.Made [Name.Lettering] (registry : Registry) (part : Part) : Prop :=
  ∃ path canonical enclosing,
    registry.resolve part.node = .ok canonical ∧
      fieldKeyMethods registry path (Name.fieldName part.node.name)
          ⟨⟨part.node, canonical⟩, enclosing⟩ = .ok part.keyMethods

/-- A part brings key methods exactly if its node has a secret. -/
theorem Part.Made.keyMethods_ne_nil_iff
    [Name.Lettering]
    {registry : Registry}
    {part : Part}
    (made : part.Made registry) :
    part.keyMethods ≠ [] ↔ (secretPlace? registry part.node).isSome := by
  obtain ⟨path, canonical, enclosing, resolved, derived⟩ := made
  have forms := map_form_of_fieldKeyMethods resolved derived
  rw [ne_eq, ← List.map_eq_nil_iff (f := KeyMethod.form), forms]
  cases (secretPlace? registry part.node).isSome <;> simp [Form.all]

/-- The struct has the fields of the given nodes, in their order, and the key methods of the
parts that the nodes are of. -/
structure Struct.Holds
    [Name.Lettering]
    (registry : Registry)
    (children : List Node)
    (parts : List Part)
    (struct : Struct) : Prop where
  nodes : parts.map Part.node = children
  wireNames : struct.fields.map Field.wireName = children.map Node.name
  keyMethods : struct.keyMethods = parts.flatMap Part.keyMethods
  made : ∀ part ∈ parts, part.Made registry

/-- The documentation of a struct does not matter to its parts. -/
theorem Struct.Holds.documented
    [Name.Lettering]
    {registry : Registry}
    {children : List Node}
    {parts : List Part}
    {struct : Struct}
    (holds : struct.Holds registry children parts)
    (documentation : Code.Documentation) :
    Struct.Holds registry children parts { struct with documentation := documentation } :=
  ⟨holds.nodes, holds.wireNames, holds.keyMethods, holds.made⟩

/-- The type of a field of the node is that of the canonical node, which is written out; a
reference to an object is not. -/
def Opens (registry : Registry) (node canonical : Node) : Prop :=
  registry.resolve node = .ok canonical ∧ ¬(node.isReference ∧ canonical.isObject)

/-- The objects that are written out below a canonical node. -/
inductive Declares (registry : Registry) : Node → Object → Prop
  | here (declaration : Declaration) (facets : ObjectFacets) (children : List Node) :
      Declares registry (.object declaration facets children) ⟨children, facets⟩
  | field
      {declaration : Declaration}
      {facets : ObjectFacets}
      {children : List Node}
      {child canonical : Node}
      {object : Object} :
      child ∈ children →
      Opens registry child canonical →
      Declares registry canonical object →
      Declares registry (.object declaration facets children) object
  | element
      {declaration : Declaration}
      {facets : ArrayFacets}
      {element canonical : Node}
      {object : Object} :
      Opens registry element canonical →
      Declares registry canonical object →
      Declares registry (.array declaration facets element) object

/-- The struct is that of an object which is written out below the canonical node. -/
def Explains [Name.Lettering] (registry : Registry) (canonical : Node) (struct : Struct) : Prop :=
  ∃ object parts,
    Declares registry canonical object ∧ struct.Holds registry object.sortedChildren parts

/-- The structs below the fields of an object and its own struct are all explained. -/
theorem explains_object
    [Name.Lettering]
    {registry : Registry}
    {declaration : Declaration}
    {facets : ObjectFacets}
    {children : List Node}
    {parts : List Part}
    {struct : Struct}
    {structs : List Struct}
    {documentation : Code.Documentation}
    (holds : struct.Holds registry (Node.sorted children) parts)
    (declared : ∀ inner ∈ structs, ∃ child ∈ Node.sorted children, ∃ canonical,
      Opens registry child canonical ∧ Explains registry canonical inner)
    {other : Struct}
    (member : other ∈ structs ++ [{ struct with documentation := documentation }]) :
    Explains registry (.object declaration facets children) other := by
  rcases List.mem_append.mp member with below | own
  · obtain ⟨child, isChild, canonical, opens, object, parts, declares, holds⟩ :=
      declared other below
    exact ⟨object, parts, .field ((Node.mem_sorted child children).mp isChild) opens declares,
      holds⟩
  · rw [List.mem_singleton.mp own]
    exact ⟨⟨children, facets⟩, parts, .here declaration facets children, holds.documented _⟩

/-- The part is one of a struct that the client of an entry declares for an object in it. -/
def Definitions.HasPart
    [Name.Lettering]
    (registry : Registry)
    (id : String)
    (definitions : Definitions)
    (part : Part) : Prop :=
  ∃ entry object parts, ∃ struct ∈ definitions.structs,
    registry.root id = .ok entry ∧
      Declares registry entry object ∧
        struct.Holds registry object.sortedChildren parts ∧ part ∈ parts

theorem Definitions.HasPart.made
    [Name.Lettering]
    {registry : Registry}
    {id : String}
    {definitions : Definitions}
    {part : Part}
    (hasPart : definitions.HasPart registry id part) :
    part.Made registry := by
  obtain ⟨entry, object, parts, struct, -, -, -, holds, isPart⟩ := hasPart
  exact holds.made part isPart

/-- A node is expanded into what it resolves to. -/
theorem resolve_of_expand
    {registry : Registry}
    {stack : List String}
    {path : FieldPath}
    {node : Node}
    {opened : registry.Opened stack node}
    (expanded : registry.expand stack path node = .ok opened) :
    registry.resolve node = .ok opened.canonical := by
  refine (Registry.resolveAt_eq_ok_iff : registry.resolveAt path node = _ ↔ _).mp ?_
  unfold Registry.expand at expanded
  unfold Registry.resolveAt
  cases named : node.reference? with
  | none =>
      rw [named] at expanded
      cases expanded
      rfl
  | some id =>
      rw [named] at expanded
      dsimp only at expanded
      split at expanded
      · cases expanded
      next canonical resolved =>
        split at expanded
        · cases expanded
        · cases expanded
          exact resolved

/-- A node without reference has the type of what it is itself. -/
theorem convertType_of_plain
    [Name.Lettering]
    {registry : Registry}
    {index : TypeIndex}
    {stack : List String}
    {owner : String}
    {path : FieldPath}
    {enclosing : List Place}
    {node : Node}
    (plain : node.reference? = none) :
    convertType registry index stack owner path enclosing node =
      convertCanonical registry index stack owner path enclosing node node := by
  have expanded : registry.expand stack path node = .ok ⟨node, stack, .inr ⟨rfl, rfl⟩⟩ := by
    unfold Registry.expand
    split
    · rfl
    next id named =>
      rw [plain] at named
      cases named
  rw [convertType, expanded, ok_bind]
  split
  next id named _ =>
    rw [plain] at named
    cases named
  next => rfl

/-- The structs that a conversion leaves behind are those of the objects that it goes through,
and the struct of fields has a part for each of them. -/
theorem explained_conversion [Name.Lettering] (registry : Registry) (index : TypeIndex) :
    (∀ stack owner path enclosing children struct emission,
      convertFields registry index stack owner path enclosing children = .ok (struct, emission) →
        (∃ parts, struct.Holds registry children parts) ∧
          ∀ inner ∈ emission.structs, ∃ child ∈ children, ∃ canonical,
            Opens registry child canonical ∧ Explains registry canonical inner) ∧
    (∀ stack owner path enclosing node type emission,
      convertType registry index stack owner path enclosing node = .ok (type, emission) →
        ∀ inner ∈ emission.structs, ∃ canonical,
          Opens registry node canonical ∧ Explains registry canonical inner) ∧
    ∀ stack owner path enclosing node canonical type emission,
      convertCanonical registry index stack owner path enclosing node canonical =
          .ok (type, emission) →
        ∀ inner ∈ emission.structs, Explains registry canonical inner := by
  apply conversion_induct registry index
  case nil =>
    intro owner enclosing
    exact ⟨⟨[], rfl, rfl, rfl, by simp⟩, by simp⟩
  case cons =>
    intro stack owner path enclosing child rest canonical methods type first struct others
      resolved derived converted ofChild ofRest
    obtain ⟨⟨parts, holds⟩, declared⟩ := ofRest
    have made : Part.Made registry ⟨child, methods⟩ :=
      ⟨_, canonical, enclosing, Registry.resolveAt_eq_ok_iff.mp resolved, derived⟩
    refine ⟨⟨⟨child, methods⟩ :: parts, ?_, ?_, ?_, ?_⟩, ?_⟩
    · rw [List.map_cons, holds.nodes]
    · rw [List.map_cons, holds.wireNames, List.map_cons, fieldOf]
    · rw [List.flatMap_cons, holds.keyMethods]
    · exact List.forall_mem_cons.mpr ⟨made, holds.made⟩
    · intro inner member
      rcases List.mem_append.mp member with own | other
      · exact ⟨child, List.mem_cons_self, ofChild inner own⟩
      · obtain ⟨node, isLater, explained⟩ := declared inner other
        exact ⟨node, List.mem_cons_of_mem child isLater, explained⟩
  case closed =>
    intro stack path enclosing node id opened named opens isObject
    simp
  case expanded =>
    intro stack path enclosing node opened type emission opens unnamed explained inner member
    refine ⟨opened.canonical, ⟨resolve_of_expand opens, ?_⟩, explained inner member⟩
    rintro ⟨isReference, isObject⟩
    obtain ⟨id, named⟩ := Option.isSome_iff_exists.mp isReference
    exact Bool.eq_false_iff.mp (unnamed id named) isObject
  case scalar =>
    intro enclosing node declaration facets
    simp
  case array =>
    intro enclosing node declaration facets element type emission explained struct member
    obtain ⟨canonical, opens, object, parts, declares, holds⟩ := explained struct member
    exact ⟨object, parts, .element opens declares, holds⟩
  case object =>
    intro enclosing node declaration facets children name struct emission explained
    obtain ⟨⟨parts, holds⟩, declared⟩ := explained
    exact fun other member => explains_object holds declared member

/-- Every struct of the client of an entry is that of an object which the entry holds in
place. -/
theorem explains_of_convertEntry
    [Name.Lettering]
    {registry : Registry}
    {index : TypeIndex}
    {id : String}
    {definitions : Definitions}
    (converted : convertEntry registry index id = .ok definitions)
    {struct : Struct}
    (member : struct ∈ definitions.structs) :
    ∃ entry, registry.root id = .ok entry ∧ Explains registry entry struct := by
  obtain ⟨entry, own, emission, found, made, rfl⟩ := exists_of_convertEntry converted
  refine ⟨entry, found, ?_⟩
  cases entry with
  | scalar | array => cases made
  | object declaration facets children =>
      obtain ⟨⟨parts, holds⟩, declared⟩ :=
        (explained_conversion registry index).1 _ _ _ _ _ _ _ made
      exact explains_object holds declared member

end Client
end SchemaCompiler
