import Mathlib.Tactic.FinCases
import SchemaCompiler.Name.Standard
import SchemaCompiler.Proofs.Client.Structs
import SchemaCompiler.Proofs.Registry.References
import SchemaCompiler.Proofs.Schema.ItemizedInput
import SchemaCompiler.Proofs.Schema.Validation

/-!
# Placeholders and the fields they are bound to

Validation looks placeholders up among the path parameters of a function. The conversion looks
them up among all fields of its input, which are made from the path parameters, the query
parameters and the body, put in order of display names. Inputs that convert have distinct names,
so that both find the same.
-/

namespace SchemaCompiler
namespace Client

open SchemaCompiler.Key (Place)
open SchemaCompiler.Outcome
open SchemaCompiler.Schema

/-! ## Fields of a struct -/

/-- The field is the one that a child of some type is declared as. -/
def FieldFor [Name.Lettering] (registry : Registry) (child : Node) (field : Field) : Prop :=
  ∃ canonical, registry.resolve child = .ok canonical ∧
    field = fieldOf child canonical field.type

variable
  {registry : Registry}
  {index : TypeIndex}

theorem FieldFor.wireName
    [Name.Lettering]
    {child : Node}
    {field : Field}
    (isFor : FieldFor registry child field) :
    field.wireName = child.name := by
  obtain ⟨canonical, -, same⟩ := isFor
  rw [same, fieldOf]

/-- The fields of a struct are made from children one by one. -/
theorem forall₂_of_convertFields
    [Name.Lettering]
    {stack : List String}
    {owner : String}
    {path : FieldPath}
    {enclosing : List Place}
    {children : List Node}
    {struct : Struct}
    {emission : Emission}
    (made : convertFields registry index stack owner path enclosing children =
      .ok (struct, emission)) :
    List.Forall₂ (FieldFor registry) children struct.fields := by
  induction children generalizing struct emission with
  | nil =>
      rw [convertFields] at made
      cases made
      exact .nil
  | cons child rest hypothesis =>
      obtain ⟨canonical, _, type, _, others, _, resolved, -, -, convertedRest, rfl, rfl⟩ :=
        exists_of_convertFields_cons made
      exact .cons ⟨canonical, Registry.resolveAt_eq_ok_iff.mp resolved, rfl⟩
        (hypothesis convertedRest)

/-- Each child has a field. -/
theorem exists_field_of_mem
    [Name.Lettering]
    {children : List Node}
    {fields : List Field}
    (each : List.Forall₂ (FieldFor registry) children fields)
    {child : Node}
    (member : child ∈ children) :
    ∃ field ∈ fields, FieldFor registry child field := by
  induction each with
  | nil => cases member
  | cons isFor _ hypothesis =>
      rcases List.mem_cons.mp member with rfl | isLater
      · exact ⟨_, List.mem_cons_self, isFor⟩
      · obtain ⟨field, isField, isFor⟩ := hypothesis isLater
        exact ⟨field, List.mem_cons_of_mem _ isField, isFor⟩

theorem map_wireName_of_forall₂
    [Name.Lettering]
    {children : List Node}
    {fields : List Field}
    (each : List.Forall₂ (FieldFor registry) children fields) :
    fields.map Field.wireName = children.map Node.name := by
  induction each with
  | nil => rfl
  | cons isFor _ hypothesis => rw [List.map_cons, List.map_cons, isFor.wireName, hypothesis]

/-! ## Parameters of an address -/

/-- Placeholders that fields have the names of are bound one by one. -/
theorem forall₂_addressParameters
    {Bound : String → AddressParameter → Prop}
    {fields : List Field}
    {placeholders : List String}
    (found : ∀ placeholder ∈ placeholders, ∃ field,
      (fields.find? fun field => field.wireName = placeholder) = some field ∧
        Bound placeholder ⟨placeholder, field.name, field.isOptional⟩) :
    List.Forall₂ Bound placeholders (addressParameters fields placeholders) := by
  induction placeholders with
  | nil => exact .nil
  | cons placeholder rest hypothesis =>
      obtain ⟨⟨field, isFirst, bound⟩, others⟩ := List.forall_mem_cons.mp found
      rw [addressParameters, List.filterMap_cons_some (by rw [isFirst]; rfl)]
      exact .cons bound (hypothesis others)

/-- A field is found by its name if no other has the name. -/
theorem find?_wireName
    {fields : List Field}
    (distinct : (fields.map Field.wireName).Nodup)
    {field : Field}
    (isField : field ∈ fields) :
    (fields.find? fun other => other.wireName = field.wireName) = some field := by
  cases found : fields.find? fun other => other.wireName = field.wireName with
  | none => simpa using List.find?_eq_none.mp found field isField
  | some other =>
      have same : other.wireName = field.wireName := by simpa using List.find?_some found
      rw [List.inj_on_of_nodup_map distinct (List.mem_of_find?_eq_some found) isField same]

/-! ## Inputs of functions -/

/-- The placeholders of a valid function are names of path parameters. -/
theorem placeholdersKnown_of_validate
    {function : Function}
    (valid : function.validate = .ok ()) :
    function.PlaceholdersKnown := by
  intro placeholder member
  rw [← Node.hasChild_iff]
  by_contra unknown
  cases found : function.placeholders.find? fun placeholder =>
      !Node.hasChild placeholder function.pathParameters with
  | none =>
      have known := List.find?_eq_none.mp found placeholder member
      simp [unknown] at known
  | some other =>
      simp only [Function.validate, found] at valid
      cases valid

/-- The input of a function has fields for all that the function takes, with distinct names. -/
theorem exists_input_of_convertInput
    [Name.Lettering]
    {lead : String}
    {function : Function}
    {definitions : Definitions}
    (made : convertInput registry index lead function = .ok definitions) :
    ∃ struct, definitions.inputs = [inputOf function struct] ∧ function.takenNames.Nodup ∧
      List.Forall₂ (FieldFor registry) (Node.sorted function.takenNodes) struct.fields := by
  obtain ⟨taken, struct, emission, itemized, converted, rfl⟩ := exists_of_convertInput made
  obtain ⟨distinct, rfl⟩ := Function.itemizedInput_eq_ok_iff.mp itemized
  exact ⟨struct, rfl, distinct, forall₂_of_convertFields converted⟩

/-- The inputs of a function are those of what it takes. -/
theorem inputs_of_convertFunction
    [Name.Lettering]
    {namespaceType : String}
    {function : Function}
    {definitions : Definitions}
    (made : convertFunction registry index namespaceType function = .ok definitions) :
    ∃ own, convertInput registry index (Name.nested namespaceType function.name) function =
        .ok own ∧ definitions.inputs = own.inputs := by
  obtain ⟨own, converted, made⟩ := bind_eq_ok_iff.mp made
  refine ⟨own, converted, ?_⟩
  split at made
  · cases made
    rfl
  · obtain ⟨output, convertedOutput, made⟩ := bind_eq_ok_iff.mp made
    cases made
    obtain ⟨documentation, emission, ⟨struct, -, rfl⟩ | ⟨target, -, rfl⟩⟩ :=
      exists_of_convertOutput convertedOutput
    all_goals exact List.append_nil own.inputs

/-- The parameter puts into the place of the placeholder the field for the path parameter of that
name. Nothing else that the function takes goes by the name. -/
structure BoundToPath
    [Name.Lettering]
    (registry : Registry)
    (function : Function)
    (input : Input)
    (placeholder : String)
    (parameter : AddressParameter) : Prop where
  field : ∃ node ∈ function.pathParameters, ∃ field ∈ input.struct.fields,
    node.name = placeholder ∧ FieldFor registry (Function.locate .path node) field ∧
      field.location = some .path ∧
      parameter = ⟨placeholder, field.name, field.isOptional⟩ ∧
      ∀ other ∈ input.struct.fields, other.wireName = placeholder → other = field
  query : ∀ node ∈ function.queryParameters, node.name ≠ placeholder
  body : function.body.isSome = true → placeholder ≠ requestBodyName

/-- What a function takes besides its path parameters has other names than these. -/
theorem name_ne_of_nodup_takenNames
    {function : Function}
    (distinct : function.takenNames.Nodup)
    {node : Node}
    (isPath : node ∈ function.pathParameters) :
    (∀ other ∈ function.queryParameters, other.name ≠ node.name) ∧
      (function.body.isSome = true → node.name ≠ requestBodyName) := by
  rw [Function.takenNames, List.append_assoc, List.nodup_append] at distinct
  have apart := distinct.2.2 _ (List.mem_map_of_mem isPath)
  constructor
  · intro other isQuery same
    exact apart _ (List.mem_append_left _ (List.mem_map_of_mem isQuery)) same.symm
  · intro hasBody
    obtain ⟨body, isBody⟩ := Option.isSome_iff_exists.mp hasBody
    exact apart _ (List.mem_append_right _ (by simp [isBody]))

/-- Every placeholder of a valid function that converts is bound, at each place where it stands in
the address, to the field for the path parameter of that name. -/
theorem placeholders_bound_to_path
    [Name.Lettering]
    {namespaceType : String}
    {function : Function}
    {definitions : Definitions}
    (valid : function.validate = .ok ())
    (made : convertFunction registry index namespaceType function = .ok definitions) :
    ∃ input, definitions.inputs = [input] ∧ input.address = function.uri ∧
      List.Forall₂ (BoundToPath registry function input) function.placeholders
        input.addressParameters := by
  obtain ⟨own, converted, inputs⟩ := inputs_of_convertFunction made
  obtain ⟨struct, single, distinct, each⟩ := exists_input_of_convertInput converted
  refine ⟨inputOf function struct, inputs.trans single, rfl, forall₂_addressParameters ?_⟩
  intro placeholder member
  obtain ⟨node, isPath, rfl⟩ := List.mem_map.mp (placeholdersKnown_of_validate valid _ member)
  have isChild : Function.locate .path node ∈ Node.sorted function.takenNodes := by
    rw [Node.mem_sorted, Function.takenNodes, List.append_assoc]
    exact List.mem_append_left _ (List.mem_map_of_mem isPath)
  obtain ⟨field, isField, isFor⟩ := exists_field_of_mem each isChild
  have named : field.wireName = node.name := isFor.wireName.trans (Function.name_locate _ _)
  have distinctFields : (struct.fields.map Field.wireName).Nodup := by
    rw [map_wireName_of_forall₂ each]
    rw [← Function.map_name_takenNodes] at distinct
    exact ((List.mergeSort_perm ..).map Node.name).nodup_iff.mpr distinct
  obtain ⟨query, body⟩ := name_ne_of_nodup_takenNames distinct isPath
  refine ⟨field, named ▸ find?_wireName distinctFields isField, ⟨?_, query, body⟩⟩
  refine ⟨node, isPath, field, isField, rfl, isFor, ?_, rfl, ?_⟩
  · obtain ⟨canonical, -, same⟩ := isFor
    rw [same, fieldOf]
    simp [Function.locate]
  · intro other isOther same
    exact List.inj_on_of_nodup_map distinctFields isOther isField (same.trans named.symm)

/-! ## A function with a repeated placeholder -/

/-- A call with two path parameters, of which one stands twice in the address, and with a query
parameter and a body besides. -/
def portFunction : Function where
  name := "read"
  uri := "/switches/\x7bswitch\x7d/ports/\x7bport\x7d/of/\x7bswitch\x7d"
  pathParameters := [.scalar { name := "port", required := true } (.int {}),
    .scalar { name := "switch" } (.string {})]
  queryParameters := [.scalar { name := "depth" } (.int {})]
  body := some (.scalar {} (.bool {}))

/-- Values without parts that are no secrets have a struct of their own. -/
theorem exists_convertFields_of_scalars
    [Name.Lettering]
    (registry : Registry)
    (index : TypeIndex)
    (stack : List String)
    (owner : String)
    (path : FieldPath)
    (enclosing : List Place)
    {children : List Node}
    (plain : ∀ child ∈ children, ∃ declaration facets, child = .scalar declaration facets ∧
      child.reference? = none ∧ child.isEncrypted = false) :
    ∃ struct, convertFields registry index stack owner path enclosing children =
      .ok (struct, {}) := by
  induction children with
  | nil => exact ⟨_, by rw [convertFields]⟩
  | cons child rest hypothesis =>
      obtain ⟨⟨declaration, facets, rfl, alone, noSecret⟩, others⟩ :=
        List.forall_mem_cons.mp plain
      obtain ⟨struct, converted⟩ := hypothesis others
      have noMethods : ∀ place name, fieldKeyMethods registry place name
          ⟨⟨.scalar declaration facets, .scalar declaration facets⟩, enclosing⟩ = .ok [] :=
        fun _ _ => if_neg (Bool.eq_false_iff.mp noSecret)
      rw [convertFields, Registry.resolveAt_of_reference?_none _ _ alone, ok_bind]
      dsimp only
      rw [noMethods, ok_bind, convertType_of_plain alone, convertCanonical, ok_bind, converted]
      exact ⟨_, rfl⟩

/-- The function converts. -/
theorem exists_convertFunction_portFunction
    (registry : Registry)
    (index : TypeIndex)
    (namespaceType : String) :
    ∃ definitions, convertFunction registry index namespaceType portFunction =
      .ok definitions := by
  have itemized : portFunction.itemizedInput =
      .ok (.object { name := "read" } {} portFunction.takenNodes) := rfl
  have plain : ∀ child ∈ Node.sorted portFunction.takenNodes, ∃ declaration facets,
      child = .scalar declaration facets ∧ child.reference? = none ∧
        child.isEncrypted = false := by
    intro child member
    rw [Node.mem_sorted] at member
    fin_cases member
    all_goals exact ⟨_, _, rfl, rfl, rfl⟩
  let taken : Node := .object { name := "read" } {} portFunction.takenNodes
  obtain ⟨struct, converted⟩ := exists_convertFields_of_scalars registry index []
    (Name.nested namespaceType portFunction.name ++ "Input") (FieldPath.single portFunction.name)
    [⟨taken, taken⟩] plain
  have input : convertInput registry index (Name.nested namespaceType portFunction.name)
      portFunction = .ok { inputs := [inputOf portFunction struct] } := by
    rw [convertInput, itemized, ok_bind]
    dsimp only [convertRoot]
    rw [converted]
    rfl
  refine ⟨{ inputs := [inputOf portFunction struct] }, ?_⟩
  unfold convertFunction
  dsimp only
  rw [input, ok_bind]
  rfl

/-- The three placeholders of the function are bound one by one. -/
theorem placeholders_bound_portFunction :
    portFunction.placeholders = ["switch", "port", "switch"] ∧
      portFunction.validate = .ok () ∧
      ∃ definitions input,
        convertFunction ⟨.empty⟩ ⟨.empty⟩ "Switch" portFunction = .ok definitions ∧
          definitions.inputs = [input] ∧
          List.Forall₂ (BoundToPath ⟨.empty⟩ portFunction input) ["switch", "port", "switch"]
            input.addressParameters := by
  have placeholders : portFunction.placeholders = ["switch", "port", "switch"] := by decide
  have valid : portFunction.validate = .ok () := rfl
  obtain ⟨definitions, made⟩ := exists_convertFunction_portFunction ⟨.empty⟩ ⟨.empty⟩ "Switch"
  obtain ⟨input, inputs, -, bound⟩ := placeholders_bound_to_path valid made
  rw [placeholders] at bound
  exact ⟨placeholders, valid, definitions, input, made, inputs, bound⟩

end Client
end SchemaCompiler
