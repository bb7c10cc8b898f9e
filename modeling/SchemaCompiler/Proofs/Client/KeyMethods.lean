import SchemaCompiler.Name.Standard
import SchemaCompiler.Proofs.Client.Structs
import SchemaCompiler.Proofs.Code.Evaluation
import SchemaCompiler.Proofs.Key.Collisions

/-!
# Key methods of structs

A key method returns an expression that is evaluated with the fields of its struct at
hand. The main statement says that it gives the storage key that was derived: a fixed
key as it is, and a key that carries the value of a sibling with what the struct holds
in the field of that sibling. This field is there, is a text, and may be missing exactly
where the key expects that it may.
-/

namespace SchemaCompiler
namespace Client

open SchemaCompiler.Code (Receiver TemplatePart evaluate templateParts? fill?)
open SchemaCompiler.Key (Form Place Position SiblingKey StorageKey)
open SchemaCompiler.Outcome
open SchemaCompiler.Schema

/-! ## Expressions of keys -/

/-- Parts of the template of a key that carries the value of a sibling. -/
def keyParts (key : SiblingKey) : List TemplatePart :=
  (key.leading.toList ++ ['|']).map .sign
    ++ .argument :: ('|' :: key.field.toList).map .sign

/-- The template of a key is split into its parts, whatever braces its names have. -/
theorem templateParts?_keyTemplate (key : SiblingKey) :
    templateParts? (Key.join [SiblingKey.templatePart key.leading,
        String.ofList Code.argumentSign, SiblingKey.templatePart key.field]).toList =
      some (keyParts key) := by
  have bar : ∀ rest, templateParts? ('|' :: rest) = (templateParts? rest).map (.sign '|' :: ·) :=
    Code.templateParts?_cons (by decide)
  have field : templateParts? (Code.escapeBraces key.field.toList) =
      some (key.field.toList.map .sign) := by
    have read := Code.templateParts?_escapeBraces_append key.field.toList []
    rw [List.append_nil] at read
    rw [read]
    simp [templateParts?]
  simp only [Key.toList_join_cons_cons, Key.join_singleton, SiblingKey.templatePart,
    String.toList_ofList, Code.templateParts?_escapeBraces_append, bar,
    Code.templateParts?_argumentSign_append, field, keyParts]
  simp

/-- The template of a key is filled to the rendered key. -/
theorem fill?_keyParts
    (key : SiblingKey)
    (value : Option String) :
    fill? (keyParts key) [value.getD ""] = some (key.render value).toList := by
  have behind := Code.fill?_map_sign_append ('|' :: key.field.toList) [] []
  rw [List.append_nil] at behind
  rw [keyParts, Code.fill?_map_sign_append, Code.fill?_argument_cons, behind]
  simp [fill?, SiblingKey.render, Key.toList_join_cons_cons]

/-- The expression of a key gives the key for what the field of the sibling holds. -/
theorem evaluate_siblingKey
    [Name.Lettering]
    {receiver : Receiver}
    {key : SiblingKey}
    (fits : (receiver.fields (Name.fieldName key.sibling)).isOption = key.isOptional) :
    evaluate receiver key.expression.tokens =
      some (key.render (receiver.fields (Name.fieldName key.sibling)).toOption) := by
  have read : [(⟨Name.fieldName key.sibling,
        if key.isOptional then .textOrEmpty else .text⟩ : Code.Argument)].mapM
          (Code.Argument.text? receiver) =
      some [(receiver.fields (Name.fieldName key.sibling)).toOption.getD ""] := by
    rw [← fits]
    simp only [List.mapM_cons, List.mapM_nil, Code.Argument.text?]
    cases receiver.fields (Name.fieldName key.sibling) <;> rfl
  rw [SiblingKey.expression, Code.evaluate_filled (templateParts?_keyTemplate key) read,
    fill?_keyParts, Option.map_some, String.ofList_toList]

/-! ## Siblings that keys depend on -/

/-- A key that depends on a sibling names a text among the children, and knows whether a
client holds it as an option. -/
def DependsOn (registry : Registry) (children : List Node) : StorageKey → Prop
  | .fixed _ => True
  | .withSibling key => ∃ sibling ∈ children, ∃ canonical,
      sibling.kind = .string ∧ sibling.name = key.sibling ∧
        registry.resolve sibling = .ok canonical ∧
          key.isOptional = isHeldOptional sibling canonical

/-- The children of the object right around a position, if there is one. -/
def siblings (enclosing : List Place) : List Node :=
  ((enclosing.head?.bind fun place => place.canonical.object?).map Object.children).getD []

theorem dependsOn_siblingKey
    {registry : Registry}
    {place : Place}
    {enclosing : List Place}
    {form : Form}
    {name : String}
    {key : StorageKey}
    (derived : Key.siblingKey registry ⟨place, enclosing⟩ form name = .ok key) :
    DependsOn registry (siblings enclosing) key := by
  unfold Key.siblingKey at derived
  cases enclosing with
  | nil => cases derived
  | cons outer others =>
      dsimp only [Position.parent?, Position.canonical] at derived
      split at derived
      · cases derived
      next object around =>
        split at derived
        · cases derived
        next sibling found =>
          split at derived
          · cases derived
          next isString =>
            obtain ⟨canonical, resolved, made⟩ := bind_eq_ok_iff.mp derived
            cases made
            refine ⟨sibling, ?_, canonical, not_not.mp isString, rfl,
              Registry.resolveAt_eq_ok_iff.mp resolved, rfl⟩
            have member : sibling ∈ object.children := List.mem_of_find?_eq_some found
            simpa [siblings, around] using member

/-- A derived key depends on a sibling of its position at most. -/
theorem dependsOn_of_derive
    {registry : Registry}
    {place : Place}
    {enclosing : List Place}
    {form : Form}
    {key : StorageKey}
    (derived : Key.derive registry ⟨place, enclosing⟩ form = .ok key) :
    DependsOn registry (siblings enclosing) key := by
  unfold Key.derive at derived
  split at derived
  · cases derived
  · cases derived
  · cases derived
    trivial
  · unfold Key.ancestorKey at derived
    split at derived
    · cases derived
    split at derived
    · cases derived
    · cases derived
      trivial
  · exact dependsOn_siblingKey derived

theorem dependsOn_of_keyMethods
    {registry : Registry}
    {field : String}
    {place : Place}
    {enclosing : List Place}
    {methods : List KeyMethod}
    (derived : keyMethods registry field ⟨place, enclosing⟩ = .ok methods) :
    ∀ method ∈ methods, DependsOn registry (siblings enclosing) method.key := by
  simp only [keyMethods, Form.all, List.mapM_cons, List.mapM_nil, bind_assoc, pure_bind] at derived
  obtain ⟨plain, derivedPlain, derived⟩ := bind_eq_ok_iff.mp derived
  obtain ⟨encrypted, derivedEncrypted, derived⟩ := bind_eq_ok_iff.mp derived
  cases derived
  simp only [List.forall_mem_cons]
  exact ⟨dependsOn_of_derive derivedPlain, dependsOn_of_derive derivedEncrypted,
    List.forall_mem_nil _⟩

/-- A key depends on fewer children than there are. -/
theorem DependsOn.mono
    {registry : Registry}
    {children others : List Node}
    {key : StorageKey}
    (depends : DependsOn registry children key)
    (among : ∀ child ∈ children, child ∈ others) :
    DependsOn registry others key := by
  cases key with
  | fixed text => trivial
  | withSibling key =>
      obtain ⟨sibling, member, rest⟩ := depends
      exact ⟨sibling, among sibling member, rest⟩

/-- The key methods of a field depend on the siblings of the field. Elements of a list have
no siblings, so that the keys of their secrets depend on nothing. -/
theorem dependsOn_of_fieldKeyMethods
    {registry : Registry}
    {path : FieldPath}
    {field : String}
    {place : Place}
    {enclosing : List Place}
    {methods : List KeyMethod}
    (derived : fieldKeyMethods registry path field ⟨place, enclosing⟩ = .ok methods) :
    ∀ method ∈ methods, DependsOn registry (siblings enclosing) method.key := by
  obtain ⟨node, canonical⟩ := place
  cases canonical with
  | array declaration facets element =>
      obtain ⟨inner, -, derived⟩ := bind_eq_ok_iff.mp derived
      split at derived
      next =>
        intro method member
        exact (dependsOn_of_keyMethods derived method member).mono fun _ none =>
          absurd none List.not_mem_nil
      next =>
        cases derived
        exact List.forall_mem_nil _
  | scalar declaration facets =>
      dsimp only [fieldKeyMethods, Position.canonical] at derived
      split at derived
      next => exact dependsOn_of_keyMethods derived
      next =>
        cases derived
        exact List.forall_mem_nil _
  | object declaration facets children =>
      cases derived
      exact List.forall_mem_nil _

/-! ## Fields that hold siblings -/

/-- The field is that of a text child. -/
structure HoldsText
    [Name.Lettering]
    (registry : Registry)
    (child : Node)
    (field : Field) : Prop where
  name : field.name = Name.fieldName child.name
  wireName : field.wireName = child.name
  type : field.type = .string
  isOptional : ∀ canonical, registry.resolve child = .ok canonical →
    field.isOptional = isHeldOptional child canonical

/-- A text has the type of texts, also where an entry describes it. -/
theorem type_of_string
    [Name.Lettering]
    {registry : Registry}
    {index : TypeIndex}
    {stack : List String}
    {owner : String}
    {path : FieldPath}
    {enclosing : List Place}
    {node : Node}
    {type : FieldType}
    {emission : Emission}
    (isString : node.kind = .string)
    (converted : convertType registry index stack owner path enclosing node =
      .ok (type, emission)) :
    type = .string := by
  obtain ⟨opened, expanded, converted⟩ := exists_of_convertType converted
  have kind : opened.canonical.kind = .string := by
    rw [← isString]
    exact Registry.kind_of_resolve (resolve_of_expand expanded)
  obtain ⟨declaration, facets, same⟩ : ∃ declaration facets,
      opened.canonical = .scalar declaration (.string facets) := by
    cases canonical : opened.canonical with
    | scalar declaration facets =>
        rw [canonical] at kind
        cases facets <;> first | exact ⟨_, _, rfl⟩ | cases kind
    | array | object =>
        rw [canonical] at kind
        cases kind
  rw [same] at converted
  rcases converted with ⟨_, _, isObject, _⟩ | ⟨-, converted⟩
  · cases isObject
  · exact (eq_of_convertCanonical_scalar converted).1

/-! ## Methods of all structs -/

/-- The field is that of the sibling of a key, and the expression of the key reads this field
and gives the key for whatever the field holds. -/
structure Field.Completes [Name.Lettering] (field : Field) (key : SiblingKey) : Prop where
  wireName : field.wireName = key.sibling
  type : field.type = .string
  isOptional : field.isOptional = key.isOptional
  reads : ∃ template reading, key.expression = .filled template [⟨field.name, reading⟩]
  computes : ∀ receiver : Receiver,
    (receiver.fields field.name).isOption = field.isOptional →
      evaluate receiver key.expression.tokens =
        some (key.render (receiver.fields field.name).toOption)

/-- A method of a struct gives its key, of which the struct holds the part that is known at
run time only. -/
def Struct.Computes [Name.Lettering] (struct : Struct) (method : KeyMethod) : Prop :=
  match method.key with
  | .fixed text => ∀ receiver, evaluate receiver method.key.expression.tokens = some text
  | .withSibling key => ∃ field ∈ struct.fields, field.Completes key

/-- All key methods of a struct give their keys. -/
def Struct.IsComputed [Name.Lettering] (struct : Struct) : Prop :=
  ∀ method ∈ struct.keyMethods, struct.Computes method

/-- A struct with a field for each text among the children gives the keys that depend on
them. -/
theorem computes_of_dependsOn
    [Name.Lettering]
    {registry : Registry}
    {children : List Node}
    {struct : Struct}
    {method : KeyMethod}
    (depends : DependsOn registry children method.key)
    (holds : ∀ child ∈ children, child.kind = .string →
      ∃ field ∈ struct.fields, HoldsText registry child field) :
    struct.Computes method := by
  unfold Struct.Computes
  cases same : method.key with
  | fixed text => exact fun receiver => Code.evaluate_ownedText receiver text
  | withSibling key =>
      rw [same] at depends
      obtain ⟨sibling, member, canonical, isString, named, resolved, optional⟩ := depends
      obtain ⟨field, isField, held⟩ := holds sibling member isString
      have identifier : field.name = Name.fieldName key.sibling := by rw [held.name, named]
      have isOptional : field.isOptional = key.isOptional := by
        rw [held.isOptional canonical resolved, optional]
      refine ⟨field, isField, held.wireName.trans named, held.type, isOptional, ?_, ?_⟩
      · rw [identifier]
        exact ⟨_, _, rfl⟩
      · intro receiver fits
        rw [identifier, isOptional] at fits
        rw [identifier]
        exact evaluate_siblingKey fits

/-- The struct of an object gives its keys if its fields are those of the children and its
keys depend on these. -/
theorem isComputed_documented
    [Name.Lettering]
    {registry : Registry}
    {children : List Node}
    {struct : Struct}
    (holds : ∀ child ∈ Node.sorted children, child.kind = .string →
      ∃ field ∈ struct.fields, HoldsText registry child field)
    (depends : ∀ method ∈ struct.keyMethods, DependsOn registry children method.key)
    (documentation : Code.Documentation) :
    Struct.IsComputed { struct with documentation := documentation } := by
  intro method member
  refine computes_of_dependsOn (depends method member) fun child isChild => ?_
  exact holds child ((Node.mem_sorted child children).mpr isChild)

/-- All structs that a conversion leaves behind give their keys. The struct of fields holds the
texts among them, and its keys depend on children of the object around these. -/
theorem computed_conversion [Name.Lettering] (registry : Registry) (index : TypeIndex) :
    (∀ stack owner path enclosing children struct emission,
      convertFields registry index stack owner path enclosing children = .ok (struct, emission) →
        (∀ child ∈ children, child.kind = .string →
          ∃ field ∈ struct.fields, HoldsText registry child field) ∧
        (∀ method ∈ struct.keyMethods, DependsOn registry (siblings enclosing) method.key) ∧
        ∀ inner ∈ emission.structs, inner.IsComputed) ∧
    (∀ stack owner path enclosing node type emission,
      convertType registry index stack owner path enclosing node = .ok (type, emission) →
        ∀ inner ∈ emission.structs, inner.IsComputed) ∧
    ∀ stack owner path enclosing node canonical type emission,
      convertCanonical registry index stack owner path enclosing node canonical =
          .ok (type, emission) →
        ∀ inner ∈ emission.structs, inner.IsComputed := by
  apply conversion_induct registry index
  case nil =>
    intro owner enclosing
    exact ⟨List.forall_mem_nil _, List.forall_mem_nil _, List.forall_mem_nil _⟩
  case cons =>
    intro stack owner path enclosing child rest canonical methods type first struct others
      resolved derived converted ofChild ofRest
    obtain ⟨holds, depends, computed⟩ := ofRest
    refine ⟨?_, ?_, List.forall_mem_append.mpr ⟨ofChild, computed⟩⟩
    · intro node member isString
      rcases List.mem_cons.mp member with rfl | isLater
      · refine ⟨_, List.mem_cons_self, ?_⟩
        -- `rfl` would go on to compute the name of the field
        refine ⟨by dsimp only [fieldOf], by dsimp only [fieldOf],
          type_of_string isString converted, ?_⟩
        intro other resolvedOther
        rw [Registry.resolveAt_eq_ok_iff, resolvedOther] at resolved
        cases resolved
        rfl
      · obtain ⟨field, isField, held⟩ := holds node isLater isString
        exact ⟨field, List.mem_cons_of_mem _ isField, held⟩
    · intro method member
      rcases List.mem_append.mp member with own | other
      · exact dependsOn_of_fieldKeyMethods derived method own
      · exact depends method other
  case closed =>
    intro stack path enclosing node id opened named opens isObject
    exact List.forall_mem_nil _
  case expanded =>
    intro stack path enclosing node opened type emission opens unnamed computed
    exact computed
  case scalar =>
    intro enclosing node declaration facets
    exact List.forall_mem_nil _
  case array =>
    intro enclosing node declaration facets element type emission computed
    exact computed
  case object =>
    intro enclosing node declaration facets children name struct emission ofChildren
    obtain ⟨holds, depends, computed⟩ := ofChildren
    refine List.forall_mem_append.mpr ⟨computed, List.forall_mem_singleton.mpr ?_⟩
    exact isComputed_documented holds depends _

/-- The struct of a walked object and those left behind give their keys. -/
theorem computed_structs
    [Name.Lettering]
    (registry : Registry)
    (index : TypeIndex) :
    GoodStructs registry index Struct.IsComputed where
  root := by
    intro name path node struct emission made documentation
    cases node with
    | scalar | array => cases made
    | object declaration facets children =>
        obtain ⟨holds, depends, computed⟩ :=
          (computed_conversion registry index).1 _ _ _ _ _ _ _ made
        exact List.forall_mem_append.mpr ⟨computed,
          List.forall_mem_singleton.mpr (isComputed_documented holds depends documentation)⟩
  type := fun made => (computed_conversion registry index).2.1 _ _ _ _ _ _ _ made

namespace Definitions

/-- Definitions that a client makes from conversions one after another. -/
inductive Converted [Name.Lettering] (registry : Registry) (index : TypeIndex) : Definitions → Prop
  | entry {id : String} {definitions : Definitions} :
      convertEntry registry index id = .ok definitions → Converted registry index definitions
  | managed {managed : Namespace} {definitions : Definitions} :
      convertNamespace registry index managed = .ok definitions →
      Converted registry index definitions
  | append {first second : Definitions} :
      Converted registry index first →
      Converted registry index second →
      Converted registry index (first ++ second)

/-- All structs of the definitions give their keys. -/
def AreComputed [Name.Lettering] (definitions : Definitions) : Prop :=
  ∀ struct ∈ definitions.allStructs, struct.IsComputed

theorem AreComputed.append
    [Name.Lettering]
    {first second : Definitions}
    (firstComputed : first.AreComputed)
    (secondComputed : second.AreComputed) :
    (first ++ second).AreComputed :=
  (accumulates_structs Struct.IsComputed).append firstComputed secondComputed

end Definitions

variable
  {registry : Registry}
  {index : TypeIndex}
  {definitions : Definitions}

theorem areComputed_convertEntry
    [Name.Lettering]
    {id : String}
    (made : convertEntry registry index id = .ok definitions) :
    definitions.AreComputed :=
  (computed_structs registry index).convertEntry made

theorem areComputed_convertNamespace
    [Name.Lettering]
    {managed : Namespace}
    (made : convertNamespace registry index managed = .ok definitions) :
    definitions.AreComputed :=
  (computed_structs registry index).convertNamespace made

/-- Every key method of every struct that a client declares returns the key that was derived
for it: a fixed key as it is, and a key with the value of a sibling for whatever value the
struct holds in the field of the sibling, which is a text of its own wire name and is optional
exactly where the key takes it to be. Names with braces are no exception. -/
theorem key_methods_compute
    [Name.Lettering]
    (converted : definitions.Converted registry index)
    {struct : Struct}
    (declared : struct ∈ definitions.allStructs)
    {method : KeyMethod}
    (isMethod : method ∈ struct.keyMethods) :
    struct.Computes method := by
  have computed : definitions.AreComputed := by
    clear declared
    induction converted with
    | entry made => exact areComputed_convertEntry made
    | managed made => exact areComputed_convertNamespace made
    | append _ _ first second => exact first.append second
  exact computed struct declared method isMethod

/-- A secret that goes by a user, with braces in its name. -/
def tokenField : Node :=
  .scalar { name := "to\x7dken" } (.string { hashing := .withSibling "us\x7ber" })

/-- The user, with a brace in its name as well. -/
def userField : Node := .scalar { name := "us\x7ber", required := true } (.string {})

/-- An entry with both. -/
def accountEntry : Node := .object { name := "account" } {} [tokenField, userField]

/-- The entry alone. -/
def accountRegistry : Registry := ⟨.ofList [("account", accountEntry)]⟩

/-- The key of the secret. -/
def accountKey (form : Form) : SiblingKey where
  leading := Key.join ["with_param_value", form.text, "us\x7ber"]
  sibling := "us\x7ber"
  isOptional := false
  field := "to\x7dken"

theorem sorted_accountEntry : Node.sorted [tokenField, userField] = [tokenField, userField] :=
  List.mergeSort_of_pairwise (by decide)

/-- The fields of the entry convert to a struct with a method for each form of the secret. -/
theorem convertFields_accountRegistry
    (index : TypeIndex)
    (owner : String) :
    ∃ struct, convertFields accountRegistry index [] owner FieldPath.root
        [⟨accountEntry, accountEntry⟩] [tokenField, userField] = .ok (struct, {}) ∧
      struct.keyMethods = Form.all.map fun form =>
        .ofKey (Name.fieldName tokenField.name) form (.withSibling (accountKey form)) := by
  have resolved : ∀ path, accountRegistry.resolveAt path tokenField = .ok tokenField :=
    fun _ => rfl
  have resolvedUser : ∀ path, accountRegistry.resolveAt path userField = .ok userField :=
    fun _ => rfl
  have derived : ∀ path field, fieldKeyMethods accountRegistry path field
      ⟨⟨tokenField, tokenField⟩, [⟨accountEntry, accountEntry⟩]⟩ =
        .ok (Form.all.map fun form => .ofKey field form (.withSibling (accountKey form))) :=
    fun _ _ => rfl
  have derivedUser : ∀ path field, fieldKeyMethods accountRegistry path field
      ⟨⟨userField, userField⟩, [⟨accountEntry, accountEntry⟩]⟩ = .ok [] := fun _ _ => rfl
  rw [convertFields, resolved, ok_bind]
  dsimp only
  rw [derived, ok_bind, convertType_of_plain rfl, tokenField, convertCanonical, ok_bind,
    ← tokenField, convertFields, resolvedUser, ok_bind]
  dsimp only
  rw [derivedUser, ok_bind, convertType_of_plain rfl, userField, convertCanonical, ok_bind,
    convertFields]
  exact ⟨_, rfl, List.append_nil _⟩

/-- The entry has a client with one struct, which has these methods. -/
theorem convertEntry_accountRegistry (index : TypeIndex) :
    ∃ struct, convertEntry accountRegistry index "account" = .ok { structs := [struct] } ∧
      struct.keyMethods = Form.all.map fun form =>
        .ofKey (Name.fieldName tokenField.name) form (.withSibling (accountKey form)) := by
  obtain ⟨struct, converted, methods⟩ :=
    convertFields_accountRegistry index (index.classOf "account")
  have found : accountRegistry.root "account" = .ok accountEntry := rfl
  refine ⟨{ struct with documentation := .ofOption none }, ?_, methods⟩
  unfold convertEntry
  rw [found, ok_bind]
  dsimp only [accountEntry, convertRoot]
  rw [sorted_accountEntry]
  rw [accountEntry] at converted
  rw [converted]
  rfl

/-- The struct of the entry holds the user in a text that is always there, and its methods put
the user into the keys, whatever the user is called. -/
theorem key_methods_compute_accountEntry :
    ∃ definitions struct field,
      convertEntry accountRegistry (.build accountRegistry []) "account" = .ok definitions ∧
        struct ∈ definitions.allStructs ∧ field ∈ struct.fields ∧
        field.wireName = "us\x7ber" ∧ field.isOptional = false ∧
        ∀ receiver : Receiver, receiver.fields field.name = .value "root" →
          evaluate receiver (accountKey .plaintext).expression.tokens =
            some "with_param_value|plaintext|us\x7ber|root|to\x7dken" := by
  obtain ⟨struct, made, methods⟩ :=
    convertEntry_accountRegistry (.build accountRegistry [])
  have declared : struct ∈ Definitions.allStructs { structs := [struct] } := List.mem_cons_self
  have isMethod : .ofKey (Name.fieldName tokenField.name) .plaintext
      (.withSibling (accountKey .plaintext)) ∈ struct.keyMethods := by
    rw [methods]
    exact List.mem_cons_self
  obtain ⟨field, isField, completes⟩ := key_methods_compute (.entry made) declared isMethod
  refine ⟨_, struct, field, made, declared, isField, completes.wireName, completes.isOptional, ?_⟩
  intro receiver held
  rw [completes.computes receiver (by rw [held, completes.isOptional]; rfl), held]
  decide

end Client
end SchemaCompiler
