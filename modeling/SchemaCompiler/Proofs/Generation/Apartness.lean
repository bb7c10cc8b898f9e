import Mathlib.Data.List.Nodup
import SchemaCompiler.Name.Standard
import SchemaCompiler.Proofs.Client.KeyMethods
import SchemaCompiler.Proofs.Name.Validity
import SchemaCompiler.Proofs.Resource.Levels

/-!
# Names apart

Escaping a display name never gives it the name of another one. So the fields of a struct, its key
methods and the attributes of a resource have names of their own wherever the children of the
object have display names of their own.
-/

namespace SchemaCompiler

/-! ## Names of fields -/

namespace Name

/-- Identifiers of fields are the same exactly for the same display names, also with an ending
instead of the raw prefix. -/
structure KeepsApart [Lettering] : Prop where
  field : ∀ left right, fieldName left = fieldName right ↔ snake left = snake right
  withSuffix : ∀ left right suffix,
    withSuffix (fieldName left) suffix = withSuffix (fieldName right) suffix ↔
      snake left = snake right

/-- Without its raw prefix, the identifier of a field still shows the display name. -/
theorem IsSnake.eq_of_unraw_escapeField_eq
    {left right : String}
    (isSnake : IsSnake left)
    (isSnakeToo : IsSnake right)
    (same : unraw (escapeField left) = unraw (escapeField right)) :
    left = right := by
  have signs := congrArg (fun name => cleaned name.toList) same
  rw [cleaned_unraw_escapeField isSnake, cleaned_unraw_escapeField isSnakeToo] at signs
  exact String.toList_injective signs

/-- Endings of one length can be told from what is in front of them. -/
theorem eq_of_withSuffix_eq
    {left right suffix other : String}
    (lengths : suffix.length = other.length)
    (same : withSuffix left suffix = withSuffix right other) :
    unraw left = unraw right ∧ suffix = other := by
  have signs := congrArg String.toList same
  unfold withSuffix at signs
  simp only [String.toList_append] at signs
  obtain ⟨front, back⟩ :=
    List.append_inj' signs (by rwa [String.length_toList, String.length_toList])
  exact ⟨String.toList_injective front, String.toList_injective back⟩

theorem keepsApart [Lettering] : KeepsApart where
  field := fun left right =>
    ⟨fun same => (isSnake_snake left).eq_of_unraw_escapeField_eq (isSnake_snake right)
        (congrArg unraw same),
      fun same => congrArg escapeField same⟩
  withSuffix := fun left right suffix =>
    ⟨fun same => (isSnake_snake left).eq_of_unraw_escapeField_eq (isSnake_snake right)
        (eq_of_withSuffix_eq rfl same).1,
      fun same => congrArg (fun display => Name.withSuffix (escapeField display) suffix) same⟩

end Name

/-! ## Names in a struct -/

namespace Client

open SchemaCompiler.Key (Form Place Position)
open SchemaCompiler.Outcome
open SchemaCompiler.Schema

/-- Name of the method for one form of the secret in a field. -/
def keyMethodName (field : String) (form : Form) : String :=
  Name.withSuffix field (Name.keyMethodEnding form)

/-- Methods are called alike only for the same form, and for the same display name. -/
theorem keyMethodName_eq_iff
    [Name.Lettering]
    {left right : String}
    {form other : Form} :
    keyMethodName (Name.fieldName left) form = keyMethodName (Name.fieldName right) other ↔
      Name.snake left = Name.snake right ∧ form = other := by
  have lengths : ∀ form other : Form,
      (Name.keyMethodEnding form).length = (Name.keyMethodEnding other).length := by
    rintro ⟨⟩ ⟨⟩ <;> decide
  have endings : ∀ form other : Form,
      Name.keyMethodEnding form = Name.keyMethodEnding other → form = other := by
    rintro ⟨⟩ ⟨⟩ <;> decide
  unfold keyMethodName
  constructor
  · intro same
    obtain rfl := endings form other (Name.eq_of_withSuffix_eq (lengths form other) same).2
    exact ⟨(Name.keepsApart.withSuffix left right _).mp same, rfl⟩
  · rintro ⟨same, rfl⟩
    exact (Name.keepsApart.withSuffix left right _).mpr same

section Methods

variable
  {registry : Registry}
  {field : String}
  {methods : List KeyMethod}

/-- The methods for a secret are named after the field. -/
theorem map_name_of_keyMethods
    {position : Position}
    (derived : keyMethods registry field position = .ok methods) :
    methods.map KeyMethod.name = Form.all.map (keyMethodName field) := by
  simp only [keyMethods, Form.all, List.mapM_cons, List.mapM_nil, bind_assoc, pure_bind] at derived
  obtain ⟨plain, -, derived⟩ := bind_eq_ok_iff.mp derived
  obtain ⟨encrypted, -, derived⟩ := bind_eq_ok_iff.mp derived
  cases derived
  rfl

/-- All methods of a field are those for one secret. -/
theorem map_name_of_fieldKeyMethods
    {path : FieldPath}
    {position : Position}
    (derived : fieldKeyMethods registry path field position = .ok methods) :
    (methods.map KeyMethod.name).Sublist (Form.all.map (keyMethodName field)) := by
  unfold fieldKeyMethods at derived
  split at derived
  next element _ =>
    obtain ⟨canonical, -, derived⟩ := bind_eq_ok_iff.mp derived
    split at derived
    next => rw [map_name_of_keyMethods derived]
    next =>
      cases derived
      exact List.nil_sublist _
  next =>
    split at derived
    next => rw [map_name_of_keyMethods derived]
    next =>
      cases derived
      exact List.nil_sublist _

end Methods

/-- The fields and key methods of the struct are called after the given nodes, one by one. -/
structure Struct.IsOf
    [Name.Lettering]
    (children : List Node)
    (struct : Struct) : Prop where
  wireNames : struct.fields.map Field.wireName = children.map Node.name
  fields : struct.fields.map Field.name = children.map fun child => Name.fieldName child.name
  keyMethods : (struct.keyMethods.map KeyMethod.name).Sublist
    (children.flatMap fun child => Form.all.map (keyMethodName (Name.fieldName child.name)))

/-- All structs of a conversion are called after the children of objects. -/
theorem isOf_conversion [Name.Lettering] (registry : Registry) (index : TypeIndex) :
    (∀ stack owner path enclosing children struct emission,
      convertFields registry index stack owner path enclosing children = .ok (struct, emission) →
        struct.IsOf children ∧
          ∀ inner ∈ emission.structs, ∃ object : Object, inner.IsOf object.sortedChildren) ∧
    (∀ stack owner path enclosing node type emission,
      convertType registry index stack owner path enclosing node = .ok (type, emission) →
        ∀ inner ∈ emission.structs, ∃ object : Object, inner.IsOf object.sortedChildren) ∧
    ∀ stack owner path enclosing node canonical type emission,
      convertCanonical registry index stack owner path enclosing node canonical =
          .ok (type, emission) →
        ∀ inner ∈ emission.structs, ∃ object : Object, inner.IsOf object.sortedChildren := by
  apply conversion_induct registry index
  case nil =>
    intro owner enclosing
    exact ⟨⟨rfl, rfl, .slnil⟩, List.forall_mem_nil _⟩
  case cons =>
    intro stack owner path enclosing child rest canonical methods type first struct others
      resolved derived converted ofChild ofRest
    obtain ⟨isOf, inner⟩ := ofRest
    refine ⟨⟨?_, ?_, ?_⟩, List.forall_mem_append.mpr ⟨ofChild, inner⟩⟩
    · rw [List.map_cons, isOf.wireNames, List.map_cons, fieldOf]
    · rw [List.map_cons, isOf.fields, List.map_cons, fieldOf]
    · rw [List.map_append, List.flatMap_cons]
      exact (map_name_of_fieldKeyMethods derived).append isOf.keyMethods
  case closed =>
    intro stack path enclosing node id opened named opens isObject
    exact List.forall_mem_nil _
  case expanded =>
    intro stack path enclosing node opened type emission opens unnamed inner
    exact inner
  case scalar =>
    intro enclosing node declaration facets
    exact List.forall_mem_nil _
  case array =>
    intro enclosing node declaration facets element type emission inner
    exact inner
  case object =>
    intro enclosing node declaration facets children name struct emission ofChildren
    obtain ⟨⟨wireNames, fields, keyMethods⟩, inner⟩ := ofChildren
    refine List.forall_mem_append.mpr ⟨inner, List.forall_mem_singleton.mpr ?_⟩
    exact ⟨⟨children, facets⟩, wireNames, fields, keyMethods⟩

/-- So are all structs of a client. -/
theorem isOf_structs
    [Name.Lettering]
    (registry : Registry)
    (index : TypeIndex) :
    GoodStructs registry index fun struct =>
      ∃ object : Object, struct.IsOf object.sortedChildren where
  root := by
    intro name path node struct emission made documentation
    cases node with
    | scalar | array => cases made
    | object declaration facets children =>
        obtain ⟨⟨wireNames, fields, keyMethods⟩, inner⟩ :=
          (isOf_conversion registry index).1 _ _ _ _ _ _ _ made
        refine List.forall_mem_append.mpr ⟨inner, List.forall_mem_singleton.mpr ?_⟩
        exact ⟨⟨children, facets⟩, wireNames, fields, keyMethods⟩
  type := fun made => (isOf_conversion registry index).2.1 _ _ _ _ _ _ _ made

/-- The fields of the struct are apart exactly if the display names of the children are, and its
key methods are apart in that case. -/
structure Struct.KeepsApart
    [Name.Lettering]
    (children : List Node)
    (struct : Struct) : Prop where
  fields : (struct.fields.map Field.name).Nodup ↔ (children.map Node.snakeName).Nodup
  keyMethods : (children.map Node.snakeName).Nodup → (struct.keyMethods.map KeyMethod.name).Nodup

/-- What depends on nodes in the same way is apart for the same lists of them. -/
theorem nodup_map_iff_of_eq_iff
    {left right : Node → String}
    (alike : ∀ node other, left node = left other ↔ right node = right other)
    (nodes : List Node) :
    (nodes.map left).Nodup ↔ (nodes.map right).Nodup := by
  unfold List.Nodup
  rw [List.pairwise_map, List.pairwise_map]
  simp only [ne_eq, alike]

theorem nodup_sorted_iff [Name.Lettering] (children : List Node) :
    ((Node.sorted children).map Node.snakeName).Nodup ↔ (children.map Node.snakeName).Nodup :=
  ((List.mergeSort_perm children _).map _).nodup_iff

theorem Struct.IsOf.keepsApart
    [Name.Lettering]
    {children : List Node}
    {struct : Struct}
    (isOf : struct.IsOf (Node.sorted children)) :
    struct.KeepsApart children where
  fields := by
    rw [isOf.fields, ← nodup_sorted_iff]
    exact nodup_map_iff_of_eq_iff (fun _ _ => Name.keepsApart.field _ _) _
  keyMethods := by
    intro distinct
    refine isOf.keyMethods.nodup (List.nodup_flatMap.mpr ⟨fun child _ => ?_, ?_⟩)
    · exact List.Nodup.map (fun _ _ same => (keyMethodName_eq_iff.mp same).2) (by decide)
    · have pairwise := List.pairwise_map.mp ((nodup_sorted_iff children).mpr distinct)
      refine pairwise.imp fun apart => List.disjoint_left.mpr fun name own other => ?_
      obtain ⟨form, -, rfl⟩ := List.mem_map.mp own
      obtain ⟨second, -, same⟩ := List.mem_map.mp other
      exact apart (keyMethodName_eq_iff.mp same).1.symm

/-- Every struct that a client declares is called after the children of an object. -/
theorem exists_isOf_of_converted
    [Name.Lettering]
    {registry : Registry}
    {index : TypeIndex}
    {definitions : Definitions}
    (converted : definitions.Converted registry index) :
    ∀ struct ∈ definitions.allStructs, ∃ object : Object, struct.IsOf object.sortedChildren := by
  induction converted with
  | entry made => exact (isOf_structs registry index).convertEntry made
  | managed made => exact (isOf_structs registry index).convertNamespace made
  | append _ _ first second => exact (Definitions.accumulates_structs _).append first second

end Client

/-! ## Names of attributes -/

namespace Resource

open SchemaCompiler.Schema

/-- Attributes are called by the display names of the fields. -/
theorem nodup_names_iff
    [Name.Lettering]
    {registry : Registry}
    {level : Level}
    (made : level.Made registry) :
    (level.attributes.map fun shown => shown.facts.name).Nodup ↔
      (level.object.children.map Node.snakeName).Nodup := by
  obtain ⟨path, usage, converted⟩ := made
  rw [names_of_convertFields converted]
  exact Client.nodup_sorted_iff level.object.children

end Resource

/-! ## Objects -/

namespace Generation

open SchemaCompiler.Client (Definitions convertFields)
open SchemaCompiler.Name (KeepsApart)
open SchemaCompiler.Resource (Level)
open SchemaCompiler.Schema

/-- Identifiers of fields are the same exactly for the same display names, however names are
spelled. So the fields and the key methods of a struct are apart where the display names of the
children of its object are: in every struct that an object is converted to, in every struct that a
client declares, and likewise in every level of a resource. -/
theorem names_apart [Name.Lettering] :
    KeepsApart ∧
      (∀ registry index stack owner path enclosing struct emission, ∀ object : Object,
        convertFields registry index stack owner path enclosing object.sortedChildren =
            .ok (struct, emission) →
          struct.KeepsApart object.children) ∧
        (∀ registry index, ∀ definitions : Definitions,
          definitions.Converted registry index →
            ∀ struct ∈ definitions.allStructs, ∃ object : Object,
              struct.fields.map Client.Field.wireName = object.sortedChildren.map Node.name ∧
                struct.KeepsApart object.children) ∧
          ∀ registry, ∀ level : Level, level.Made registry →
            ((level.attributes.map fun shown => shown.facts.name).Nodup ↔
              (level.object.children.map Node.snakeName).Nodup) := by
  refine ⟨Name.keepsApart, ?_, ?_, fun _ _ => Resource.nodup_names_iff⟩
  · intro registry index stack owner path enclosing struct emission object made
    have isOf := ((Client.isOf_conversion registry index).1 _ _ _ _ _ _ _ made).1
    exact Client.Struct.IsOf.keepsApart isOf
  · intro registry index definitions converted struct declared
    obtain ⟨object, isOf⟩ := Client.exists_isOf_of_converted converted struct declared
    exact ⟨object, isOf.wireNames, Client.Struct.IsOf.keepsApart isOf⟩

/-- A secret and a user, with braces in their names, have two fields and two key methods with
names of their own. -/
theorem names_apart_accountEntry :
    ∃ struct, convertFields Client.accountRegistry (.build Client.accountRegistry []) [] "Account"
        FieldPath.root [⟨Client.accountEntry, Client.accountEntry⟩]
        [Client.tokenField, Client.userField] = .ok (struct, {}) ∧
      struct.keyMethods.length = 2 ∧
        (struct.fields.map Client.Field.name).Nodup ∧
          (struct.keyMethods.map Client.KeyMethod.name).Nodup := by
  have distinct : ([Client.tokenField, Client.userField].map Node.snakeName).Nodup := by
    decide +kernel
  obtain ⟨struct, made, methods⟩ :=
    Client.convertFields_accountRegistry (.build Client.accountRegistry []) "Account"
  have sorted : Object.sortedChildren ⟨[Client.tokenField, Client.userField], {}⟩ =
      [Client.tokenField, Client.userField] := Client.sorted_accountEntry
  have apart := names_apart.2.1 _ _ _ _ _ _ _ _ _ (sorted.symm ▸ made)
  exact ⟨struct, made, by rw [methods]; rfl, apart.fields.mpr distinct,
    apart.keyMethods distinct⟩

end Generation
end SchemaCompiler
