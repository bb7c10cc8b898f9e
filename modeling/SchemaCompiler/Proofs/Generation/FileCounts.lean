import SchemaCompiler.Proofs.Client.Counts
import SchemaCompiler.Proofs.Generation.Tallies
import SchemaCompiler.Proofs.Resource.AttributeCode

/-!
# Counts of files

The key accessors and the attributes in generated code are those of the definitions and schemas
that it is written from. What a part of a run adds to these counts is what is in its files.
-/

namespace SchemaCompiler
namespace Generation

open SchemaCompiler.Client (Definitions Import Input Struct)
open SchemaCompiler.Code (Item Member Token)
open SchemaCompiler.Key (Form)
open SchemaCompiler.Resource (ResourceSchema)

/-! ## Counts of code -/

/-- The member is a method that returns a storage key, by its documentation. -/
def isKeyAccessor : Member → Bool
  | .constant _ => false
  | .method definition => Form.all.any fun form =>
      definition.markers.contains (.documentation s!" Store key of the {form.text} value.")

/-- Number of key accessors in an item. -/
def accessorsIn : Item → Nat
  | .implementation _ members => members.countP isKeyAccessor
  | _ => 0

/-- Number of attributes that the code of an item makes. -/
def attributesIn : Item → Nat
  | .function definition =>
      match definition.body with
      | .list tokens => (Token.namesOf tokens).count "Attribute"
      | _ => 0
  | _ => 0

/-- Number of key accessors in a file. -/
def Draft.accessors (draft : Draft) : Nat := total accessorsIn draft.items

/-- Number of attributes in a file. -/
def Draft.attributes (draft : Draft) : Nat := total attributesIn draft.items

theorem isKeyAccessor_keyMember [Name.Lettering] (keyMethod : Client.KeyMethod) :
    isKeyAccessor (keyMember keyMethod) = true := by
  obtain ⟨name, form, key⟩ := keyMethod
  cases form <;> simp [isKeyAccessor, keyMember, textMethod, Form.all]

theorem countP_isKeyAccessor_keyMembers [Name.Lettering] (keyMethods : List Client.KeyMethod) :
    (keyMethods.map keyMember).countP isKeyAccessor = keyMethods.length := by
  rw [List.countP_eq_length.mpr, List.length_map]
  exact List.forall_mem_map.mpr fun keyMethod _ => isKeyAccessor_keyMember keyMethod

theorem accessors_structItems [Name.Lettering] (struct : Struct) :
    total accessorsIn (structItems struct) = struct.keyMethods.length := by
  unfold structItems
  cases methods : struct.keyMethods with
  | nil => rfl
  | cons first rest =>
      rw [if_neg (by simp), total_cons, total_cons, total_nil, accessorsIn,
        countP_isKeyAccessor_keyMembers]
      simp [accessorsIn]

/-- The method with the address of an input is no key accessor. -/
theorem accessors_inputItems [Name.Lettering] (input : Input) :
    total accessorsIn (inputItems input) = input.struct.keyMethods.length := by
  have noKey : ∀ form ∈ Form.all,
      s!" Store key of the {form.text} value." ≠ " URI with path placeholders filled in." := by
    decide
  have others : total accessorsIn [.implementation input.struct.name [
      textConstant "METHOD" input.method,
      textConstant Input.addressConstant input.address,
      textMethod " URI with path placeholders filled in." "uri" input.addressExpression]] = 0 := by
    simpa [accessorsIn, textConstant, textMethod, isKeyAccessor] using noKey
  rw [inputItems, total_append, accessors_structItems, others, Nat.add_zero]

theorem accessors_outputItems [Name.Lettering] (output : Client.Output) :
    total accessorsIn (outputItems output) =
      (output.struct?.map fun struct => struct.keyMethods.length).getD 0 := by
  rcases output with ⟨name, documentation, target⟩ | definition
  · rfl
  · exact accessors_structItems definition

/-- The key accessors in a client file are those of its structs. -/
theorem accessors_clientItems
    [Name.Lettering]
    (definitions : Definitions)
    (imports : List Import) :
    total accessorsIn (clientItems definitions imports) = definitions.keyMethodCount := by
  have serde : total accessorsIn (if definitions.structCount = 0 then []
      else [.use false ["serde"] (.several ["Deserialize", "Serialize"])]) = 0 := by
    split <;> rfl
  have imported : total accessorsIn (imports.map importItem) = 0 :=
    total_eq_zero (List.forall_mem_map.mpr fun _ _ => rfl)
  have counted : definitions.keyMethodCount =
      total (fun struct : Struct => struct.keyMethods.length) definitions.allStructs := rfl
  rw [clientItems, total_append, total_append, total_append, total_append, serde, imported,
    total_flatMap, total_flatMap, total_flatMap, counted, Definitions.allStructs, total_append,
    total_append, total_map, total_filterMap]
  simp only [accessors_structItems, accessors_inputItems, accessors_outputItems, Nat.zero_add]

/-- A client file makes no attributes. -/
theorem attributes_clientItems
    [Name.Lettering]
    (definitions : Definitions)
    (imports : List Import) :
    total attributesIn (clientItems definitions imports) = 0 := by
  have structs : ∀ struct, total attributesIn (structItems struct) = 0 := by
    intro struct
    unfold structItems
    split <;> rfl
  have inputs : ∀ input, total attributesIn (inputItems input) = 0 := fun input => by
    rw [inputItems, total_append, structs]
    rfl
  have outputs : ∀ output, total attributesIn (outputItems output) = 0 := by
    rintro (⟨name, documentation, target⟩ | definition)
    · rfl
    · exact structs definition
  have serde : total attributesIn (if definitions.structCount = 0 then []
      else [.use false ["serde"] (.several ["Deserialize", "Serialize"])]) = 0 := by
    split <;> rfl
  have imported : total attributesIn (imports.map importItem) = 0 :=
    total_eq_zero (List.forall_mem_map.mpr fun _ _ => rfl)
  rw [clientItems, total_append, total_append, total_append, total_append, serde, imported,
    total_flatMap, total_flatMap, total_flatMap, total_eq_zero fun struct _ => structs struct,
    total_eq_zero fun input _ => inputs input, total_eq_zero fun output _ => outputs output]

theorem accessors_resourceItems
    (schema : ResourceSchema)
    (slug : String) :
    total accessorsIn (resourceItems schema slug) = 0 := rfl

/-- A resource file makes the attributes of its schema. -/
theorem attributes_resourceItems
    (schema : ResourceSchema)
    (slug : String) :
    total attributesIn (resourceItems schema slug) = schema.attributeCount := by
  simp only [resourceItems, total_cons, total_nil, attributesIn, Resource.count_listTokens,
    Nat.zero_add, Nat.add_zero]
  rfl

/-- The files that declare modules have neither. -/
theorem counts_moduleDrafts
    {modules : Modules}
    {draft : Draft}
    (member : draft ∈ moduleDrafts modules) :
    draft.accessors = 0 ∧ draft.attributes = 0 := by
  have parts : ∀ {isOpen : Bool} {names : List String},
      total accessorsIn (names.map (.part isOpen)) = 0 ∧
        total attributesIn (names.map (.part isOpen)) = 0 :=
    ⟨total_eq_zero (List.forall_mem_map.mpr fun _ _ => rfl),
      total_eq_zero (List.forall_mem_map.mpr fun _ _ => rfl)⟩
  rcases List.mem_append.mp member with inModule | root
  · obtain ⟨⟨name, stems⟩, -, rfl⟩ := List.mem_map.mp inModule
    have uses : ∀ {count : Item → Nat}, (∀ stem, count (.use true [stem] .everything) = 0) →
        total count (stems.names.map fun stem => .use true [stem] .everything) = 0 :=
      fun nothing => total_eq_zero (List.forall_mem_map.mpr fun stem _ => nothing stem)
    simp only [Draft.accessors, Draft.attributes, moduleDraft, total_append]
    exact ⟨by rw [parts.1, uses fun _ => rfl], by rw [parts.2, uses fun _ => rfl]⟩
  · split at root
    · cases root
    · rw [List.mem_singleton.mp root]
      exact parts

/-! ## Counts of parts -/

/-- The tally counts what is in its files; a field with a secret has two accessors. -/
structure Tally.Exact (tally : Tally) : Prop where
  attributes : tally.attributes = total Draft.attributes tally.drafts
  accessors : 2 * tally.encryptedFields = total Draft.accessors tally.drafts

theorem Tally.Exact.append
    {left right : Tally}
    (leftExact : left.Exact)
    (rightExact : right.Exact) :
    (left ++ right).Exact := by
  simp only [Tally.append_eq, Tally.append]
  constructor
  · rw [total_append, leftExact.attributes, rightExact.attributes]
  · rw [total_append, Nat.mul_add, leftExact.accessors, rightExact.accessors]

theorem Tally.exact_sum
    {tallies : List Tally}
    (each : ∀ tally ∈ tallies, tally.Exact) :
    (Tally.sum tallies).Exact := by
  induction tallies with
  | nil => exact ⟨rfl, rfl⟩
  | cons first rest hypothesis =>
      obtain ⟨own, others⟩ := List.forall_mem_cons.mp each
      exact own.append (hypothesis others)

section Parts

variable (project : Project)

/-- A client file has twice as many key accessors as fields with secrets are counted. -/
theorem accessors_clientFile
    [Name.Lettering]
    {definitions : Definitions}
    (moduleName : String)
    (paired : ∀ struct ∈ definitions.allStructs, struct.Paired) :
    total accessorsIn (clientFile project moduleName definitions) =
      2 * (definitions.keyMethodCount / 2) := by
  rw [clientFile, accessors_clientItems,
    Nat.mul_div_cancel' (Definitions.two_dvd_keyMethodCount paired)]

theorem exact_namespaceTally [Name.Lettering] (titled : Titled) :
    (namespaceTally project titled).Exact := by
  unfold namespaceTally
  split
  next definitions schema converted =>
    have paired : ∀ struct ∈ definitions.allStructs, struct.Paired :=
      (Client.paired_structs project.registry project.index).convertNamespace
        (convertNamespace_of_convert converted)
    constructor
    · simp only [total_cons, total_nil, Draft.attributes, clientFile, attributes_clientItems,
        attributes_resourceItems, Nat.zero_add, Nat.add_zero]
    · simp only [total_cons, total_nil, Draft.accessors, accessors_clientFile project _ paired,
        accessors_resourceItems, Nat.add_zero]
  next => exact ⟨rfl, rfl⟩
  next => exact ⟨rfl, rfl⟩

theorem exact_sharedTally [Name.Lettering] (shared : String × List String) :
    (sharedTally project shared).Exact := by
  have paired : ∀ struct ∈ (convertShared project shared.2).1.allStructs, struct.Paired :=
    good_convertShared (Definitions.accumulates_structs Struct.Paired)
      fun _ _ _ => (Client.paired_structs project.registry project.index).convertEntry
  dsimp only [sharedTally]
  split
  · exact ⟨rfl, rfl⟩
  · constructor
    · simp only [total_cons, total_nil, Draft.attributes, clientFile, attributes_clientItems,
        Nat.add_zero]
    · simp only [total_cons, total_nil, Draft.accessors, accessors_clientFile project _ paired,
        Nat.add_zero]

/-- A run counts the attributes and secrets in its files. -/
theorem exact_of_progress
    [Name.Lettering]
    {only : Order.NameSet}
    {made : Progress}
    (ran : progress project only = some made) :
    made.tally.Exact := by
  have unknown : Tally.Exact { warnings := unknownNames project only } := ⟨rfl, rfl⟩
  rw [tally_of_progress ran]
  refine (unknown.append (Tally.exact_sum ?_)).append (Tally.exact_sum ?_)
  · exact List.forall_mem_map.mpr fun titled _ => exact_namespaceTally project titled
  · exact List.forall_mem_map.mpr fun shared _ => exact_sharedTally project shared

end Parts

end Generation
end SchemaCompiler
