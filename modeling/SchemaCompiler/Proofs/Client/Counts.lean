import SchemaCompiler.Proofs.Client.Structs

/-!
# Counts of a client

Every struct has two key methods for each secret among its fields, so the key methods of a client
come in pairs. The client of a namespace has one input for each of its functions, and that of an
entry has none.
-/

namespace SchemaCompiler
namespace Client

open SchemaCompiler.Key (Form)
open SchemaCompiler.Outcome
open SchemaCompiler.Schema

/-! ## Key methods -/

/-- A struct has two key methods for each of its fields with a secret. -/
theorem Struct.Holds.length_keyMethods
    [Name.Lettering]
    {registry : Registry}
    {children : List Node}
    {parts : List Part}
    {struct : Struct}
    (holds : struct.Holds registry children parts) :
    struct.keyMethods.length =
      2 * children.countP fun child => (secretPlace? registry child).isSome := by
  rw [holds.keyMethods, ← holds.nodes]
  have made := holds.made
  clear holds
  induction parts with
  | nil => rfl
  | cons part rest hypothesis =>
      obtain ⟨⟨path, canonical, enclosing, resolved, derived⟩, others⟩ :=
        List.forall_mem_cons.mp made
      have forms := congrArg List.length (map_form_of_fieldKeyMethods resolved derived)
      rw [List.length_map] at forms
      rw [List.flatMap_cons, List.length_append, forms, hypothesis others, List.map_cons,
        List.countP_cons]
      split
      · simp [Form.all, Nat.mul_add, Nat.add_comm]
      · simp

/-- The key methods of the struct come in pairs. -/
def Struct.Paired (struct : Struct) : Prop := 2 ∣ struct.keyMethods.length

theorem Struct.Holds.paired
    [Name.Lettering]
    {registry : Registry}
    {children : List Node}
    {parts : List Part}
    {struct : Struct}
    (holds : struct.Holds registry children parts) :
    struct.Paired :=
  ⟨_, holds.length_keyMethods⟩

/-- So do those of all structs that a walk makes. -/
theorem paired_structs
    [Name.Lettering]
    (registry : Registry)
    (index : TypeIndex) :
    GoodStructs registry index Struct.Paired where
  root := by
    intro name path node struct emission made documentation
    cases node with
    | scalar | array => cases made
    | object declaration facets children =>
        obtain ⟨⟨parts, holds⟩, declared⟩ :=
          (explained_conversion registry index).1 _ _ _ _ _ _ _ made
        refine List.forall_mem_append.mpr ⟨fun inner member => ?_, ?_⟩
        · obtain ⟨child, -, canonical, -, object, others, -, holdsInner⟩ := declared inner member
          exact holdsInner.paired
        · exact List.forall_mem_singleton.mpr (holds.documented documentation).paired
  type := by
    intro owner path node type emission made inner member
    obtain ⟨canonical, -, object, parts, -, holds⟩ :=
      (explained_conversion registry index).2.1 _ _ _ _ _ _ _ made inner member
    exact holds.paired

/-- Pairs add up to pairs. -/
theorem Definitions.two_dvd_keyMethodCount
    {definitions : Definitions}
    (paired : ∀ struct ∈ definitions.allStructs, struct.Paired) :
    2 ∣ definitions.keyMethodCount := by
  unfold keyMethodCount
  generalize definitions.allStructs = structs at paired
  induction structs with
  | nil => exact Nat.dvd_zero 2
  | cons struct rest hypothesis =>
      obtain ⟨own, others⟩ := List.forall_mem_cons.mp paired
      exact Nat.dvd_add own (hypothesis others)

/-! ## Inputs -/

section Inputs

variable
  {registry : Registry}
  {index : TypeIndex}
  {definitions : Definitions}

theorem inputs_convertEntry
    [Name.Lettering]
    {id : String}
    (made : convertEntry registry index id = .ok definitions) :
    definitions.inputs = [] := by
  obtain ⟨root, struct, emission, -, -, rfl⟩ := exists_of_convertEntry made
  rfl

theorem length_inputs_convertFunction
    [Name.Lettering]
    {namespaceType : String}
    {function : Function}
    (made : convertFunction registry index namespaceType function = .ok definitions) :
    definitions.inputs.length = 1 := by
  obtain ⟨input, convertedInput, made⟩ := bind_eq_ok_iff.mp made
  obtain ⟨taken, struct, emission, -, -, rfl⟩ := exists_of_convertInput convertedInput
  split at made
  · cases made
    rfl
  next node returned =>
    obtain ⟨output, convertedOutput, made⟩ := bind_eq_ok_iff.mp made
    cases made
    obtain ⟨documentation, emission, ⟨struct, -, rfl⟩ | ⟨target, -, rfl⟩⟩ :=
      exists_of_convertOutput convertedOutput <;> rfl

theorem length_inputs_convertFunctions
    [Name.Lettering]
    {namespaceType : String}
    {functions : List (OperationKind × Function)}
    (made : convertFunctions registry index namespaceType functions = .ok definitions) :
    definitions.inputs.length = functions.length := by
  induction functions generalizing definitions with
  | nil =>
      cases made
      rfl
  | cons function rest hypothesis =>
      obtain ⟨first, converted, made⟩ := bind_eq_ok_iff.mp made
      obtain ⟨others, convertedRest, made⟩ := bind_eq_ok_iff.mp made
      cases made
      rw [Definitions.inputs_append, List.length_append, length_inputs_convertFunction converted,
        hypothesis convertedRest, List.length_cons, Nat.add_comm]

/-- The client of a namespace takes one input for each function. -/
theorem length_inputs_convertNamespace
    [Name.Lettering]
    {managed : Namespace}
    (made : convertNamespace registry index managed = .ok definitions) :
    definitions.inputs.length = managed.functions.length := by
  obtain ⟨entry, converted, made⟩ := bind_eq_ok_iff.mp made
  obtain ⟨others, convertedFunctions, made⟩ := bind_eq_ok_iff.mp made
  cases made
  rw [Definitions.inputs_append, inputs_convertEntry converted, List.nil_append,
    length_inputs_convertFunctions convertedFunctions]

end Inputs

end Client
end SchemaCompiler
