import SchemaCompiler.Proofs.Schema.Soundness

/-!
# What the validation of a sound document finds

Groups of a sound document name children, so its validation can only object to numbers that
are not finite and to placeholders that no path parameter has the name of.
-/

namespace SchemaCompiler
namespace Schema

open SchemaCompiler.Number (Binary64)

/-- The error complains about a member of a group. -/
def SchemaError.IsUnknownGroupMember (error : SchemaError) : Prop :=
  ∃ path member, error = .unknownGroupMember path member

/-- A check succeeds exactly if a condition holds and never complains about groups. -/
def Decides (outcome : Except SchemaError Unit) (condition : Prop) : Prop :=
  match outcome with
  | .ok _ => condition
  | .error error => ¬condition ∧ ¬error.IsUnknownGroupMember

namespace Decides

variable {outcome : Except SchemaError Unit} {condition other : Prop}

theorem eq_ok_iff
    (decides : Decides outcome condition) :
    outcome = .ok () ↔ condition := by
  cases outcome with
  | ok => exact iff_of_true rfl decides
  | error => exact iff_of_false (by simp) decides.1

theorem ne_unknownGroupMember
    (decides : Decides outcome condition)
    (path : FieldPath)
    (member : String) :
    outcome ≠ .error (.unknownGroupMember path member) := by
  rintro rfl
  exact decides.2 ⟨path, member, rfl⟩

theorem congr
    (decides : Decides outcome condition)
    (same : condition ↔ other) :
    Decides outcome other := by
  rwa [← propext same]

/-- One check after the other decides both conditions. -/
theorem bind
    {next : Unit → Except SchemaError Unit}
    (first : Decides outcome condition)
    (second : Decides (next ()) other) :
    Decides (outcome >>= next) (condition ∧ other) := by
  cases outcome with
  | error error => exact ⟨fun both => first.1 both.1, first.2⟩
  | ok =>
      change Decides (next ()) _
      exact second.congr (and_iff_right first).symm

/-- Checks of all values of a list decide the conditions of all. -/
theorem forIn
    {check : α → Except SchemaError Unit}
    {values : List α}
    {property : α → Prop}
    (each : ∀ value ∈ values, Decides (check value) (property value)) :
    Decides (do for value in values do check value) (∀ value ∈ values, property value) := by
  rw [bind_pure_unit]
  induction values with
  | nil => exact List.forall_mem_nil _
  | cons value rest hypothesis =>
      rw [List.forall_mem_cons] at each
      rw [List.forIn_cons, List.forall_mem_cons, bind_assoc]
      exact each.1.bind (hypothesis each.2)

end Decides

/-- The numbers that some facets state. -/
def NumberFacets.numbers (facets : NumberFacets α) : List α :=
  facets.defaultValue.toList ++ facets.min.toList ++ facets.max.toList ++ facets.values

namespace Node

mutual

/-- Floating point numbers of a tree. -/
def floats : Node → List Binary64
  | .scalar _ (.float facets) => facets.numbers
  | .scalar _ _ => []
  | .array _ _ element => floats element
  | .object _ _ children => floatsAll children

/-- Floating point numbers of all nodes of a list. -/
def floatsAll : List Node → List Binary64
  | [] => []
  | child :: rest => floats child ++ floatsAll rest

end

theorem mem_floatsAll
    {number : Binary64}
    {nodes : List Node} :
    number ∈ floatsAll nodes ↔ ∃ node ∈ nodes, number ∈ node.floats := by
  induction nodes with
  | nil => simp [floatsAll]
  | cons node rest hypothesis => simp [floatsAll, hypothesis]

/-- All floating point numbers of the tree are finite. -/
def Finite (node : Node) : Prop := ∀ number ∈ node.floats, number.isFinite

/-- The first number that is not finite is looked for among all of them. -/
theorem strangeBound?_eq_none_iff (facets : NumberFacets Binary64) :
    strangeBound? facets = none ↔ ∀ number ∈ facets.numbers, number.isFinite := by
  simp only [strangeBound?, NumberFacets.numbers, List.find?_eq_none, List.forall_mem_append]
  cases facets.defaultValue <;> cases facets.min <;> cases facets.max <;> simp [and_assoc]

/-- Groups are valid exactly if all of their members are children. -/
theorem Object.validateGroups_eq_ok_iff
    {object : Object}
    {path : FieldPath} :
    object.validateGroups path = .ok () ↔
      ∀ group ∈ object.groups, ∀ member ∈ group, Node.hasChild member object.children := by
  unfold Object.validateGroups
  split
  next member strange =>
    refine iff_of_false (by simp) fun known => ?_
    obtain ⟨group, isGroup, inGroup⟩ := List.mem_flatten.mp (List.mem_of_find?_eq_some strange)
    have unknown := List.find?_some strange
    simp [known group isGroup member inGroup] at unknown
  next familiar =>
    refine iff_of_true rfl fun group isGroup member inGroup => ?_
    have known := List.find?_eq_none.mp familiar member
      (List.mem_flatten.mpr ⟨group, isGroup, inGroup⟩)
    simpa using known

/-- An object is valid if its groups and its children are, which are checked in this order. -/
theorem validate_object
    (declaration : Declaration)
    (facets : ObjectFacets)
    (children : List Node)
    (path : FieldPath) :
    (object declaration facets children).validate path = (do
      Object.validateGroups ⟨children, facets⟩ path
      validateAll path children) := by
  rw [validate, Object.validateGroups, Object.groups]
  dsimp only
  cases strangeMember? children facets.groups.flatten <;> rfl

/-- Checks of all children are checks of each. -/
theorem decides_validateAll
    {children : List Node}
    (each : ∀ child ∈ children, ∀ path, Decides (child.validate path) child.Finite)
    (path : FieldPath) :
    Decides (validateAll path children) (∀ child ∈ children, child.Finite) := by
  induction children with
  | nil => exact List.forall_mem_nil _
  | cons child rest hypothesis =>
      rw [List.forall_mem_cons] at each
      rw [validateAll, List.forall_mem_cons]
      exact (each.1 _).bind (hypothesis each.2)

/-- A tree whose groups name children is valid exactly if its numbers are finite. -/
theorem decides_validate
    {node : Node}
    (formed : node.WellFormed)
    (path : FieldPath) :
    Decides (node.validate path) node.Finite := by
  induction node using inductOn generalizing path with
  | scalar declaration facets =>
      cases facets with
      | float facets =>
          have none_iff := strangeBound?_eq_none_iff facets
          rw [validate]
          split
          next bound value strange =>
            refine ⟨fun finite => ?_, by rintro ⟨_, _, same⟩; cases same⟩
            rw [none_iff.mpr finite] at strange
            cases strange
          next absent => exact none_iff.mp absent
      | bool | int | string => exact List.forall_mem_nil _
  | array _ _ element hypothesis =>
      cases formed with
      | array formed => exact hypothesis formed path
  | object _ facets children hypothesis =>
      cases formed with
      | object _ _ known formed =>
          have familiar : Object.validateGroups ⟨children, facets⟩ path = .ok () :=
            Object.validateGroups_eq_ok_iff.mpr known
          rw [validate_object, familiar, Outcome.ok_bind]
          refine (decides_validateAll (fun child member path =>
            hypothesis child member (formed child member) path) path).congr ?_
          simp only [Finite, floats, mem_floatsAll]
          constructor
          · rintro all number ⟨child, member, inside⟩
            exact all child member number inside
          · intro all child member number inside
            exact all number ⟨child, member, inside⟩

end Node

namespace Function

/-- Every placeholder of the address template is the name of a path parameter. -/
def PlaceholdersKnown (function : Function) : Prop :=
  ∀ placeholder ∈ function.placeholders, placeholder ∈ function.pathParameters.map Node.name

/-- A sound function is valid exactly if its placeholders are known and its numbers are
finite. -/
theorem decides_validate
    {function : Function}
    (sound : function.Sound) :
    Decides function.validate
      (function.PlaceholdersKnown ∧ ∀ node ∈ function.nodes, node.Finite) := by
  have formed : ∀ node ∈ function.nodes, ∀ path, Decides (node.validate path) node.Finite :=
    fun node member => Node.decides_validate (sound.nodes node member).wellFormed
  have nodes : function.nodes = (function.pathParameters ++ function.queryParameters)
      ++ (function.body.toList ++ function.output.toList) := List.append_assoc ..
  cases found : function.placeholders.find? fun placeholder =>
      !Node.hasChild placeholder function.pathParameters with
  | some parameter =>
      have failed : function.validate =
          .error (.unknownPathParameter function.name function.uri parameter) := by
        simp only [validate, found]
        rfl
      rw [failed]
      refine ⟨fun both => ?_, by rintro ⟨_, _, same⟩; cases same⟩
      have unknown := List.find?_some found
      have known := both.1 parameter (List.mem_of_find?_eq_some found)
      rw [← Node.hasChild_iff] at known
      simp [known] at unknown
  | none =>
      have known : function.PlaceholdersKnown := by
        intro placeholder member
        have present := List.find?_eq_none.mp found placeholder member
        rw [← Node.hasChild_iff]
        simpa using present
      have checks : function.validate =
          (Node.validateAll (FieldPath.single function.name)
              (function.pathParameters ++ function.queryParameters) >>= fun _ => do
            for node in function.body.toList ++ function.output.toList do
              node.validate (FieldPath.single function.name)) := by
        simp only [validate, found]
      rw [nodes, List.forall_mem_append] at formed
      rw [checks, nodes, List.forall_mem_append, and_iff_right known]
      exact (Node.decides_validateAll formed.1 _).bind
        (Decides.forIn fun node member => formed.2 node member _)

end Function

namespace Namespace

/-- A namespace with sound functions is valid exactly if each of them is. -/
theorem decides_validate
    {managed : Namespace}
    (sound : managed.All Function.Sound) :
    Decides managed.validate (∀ entry ∈ managed.functions,
      entry.2.PlaceholdersKnown ∧ ∀ node ∈ entry.2.nodes, node.Finite) := by
  have each := all_iff.mp sound
  exact Decides.forIn fun entry member => Function.decides_validate (each entry member)

end Namespace

namespace Document

/-- Nodes of the entries and of the functions of a document. -/
def nodes (document : Document) : List Node :=
  document.schemas.entries.map Prod.snd
    ++ document.namespaces.flatMap fun managed =>
      managed.functions.flatMap fun entry => entry.2.nodes

/-- Floating point numbers of a document. -/
def floats (document : Document) : List Binary64 := document.nodes.flatMap Node.floats

/-- Every placeholder of every function is the name of one of its path parameters. -/
def PlaceholdersKnown (document : Document) : Prop :=
  ∀ managed ∈ document.namespaces, ∀ entry ∈ managed.functions, entry.2.PlaceholdersKnown

/-- A sound document is valid exactly if its numbers are finite and its placeholders are
known. -/
theorem decides_validate
    {document : Document}
    (sound : document.Sound) :
    Decides document.validate
      ((∀ number ∈ document.floats, number.isFinite) ∧ document.PlaceholdersKnown) := by
  have schemas := Decides.forIn fun entry member =>
    Node.decides_validate (sound.schemas entry member).wellFormed (FieldPath.single entry.1)
  have functions := Decides.forIn fun managed member =>
    Namespace.decides_validate (sound.functions managed member)
  have checks : document.validate =
      ((do for entry in document.schemas.entries do
          entry.2.validate (FieldPath.single entry.1)) >>= fun _ => do
        for managed in document.namespaces do managed.validate) := by
    simp only [validate, bind_pure_unit]
  rw [checks]
  refine (schemas.bind functions).congr ?_
  have finite : (∀ number ∈ document.floats, number.isFinite) ↔
      (∀ entry ∈ document.schemas.entries, entry.2.Finite) ∧
        ∀ managed ∈ document.namespaces, ∀ entry ∈ managed.functions,
          ∀ node ∈ entry.2.nodes, node.Finite := by
    simp only [floats, nodes, List.forall_mem_flatMap, List.forall_mem_append, List.forall_mem_map,
      Node.Finite]
  rw [finite, and_assoc, and_congr_right_iff]
  intro _
  simp only [PlaceholdersKnown, forall_and]
  exact and_comm

end Document

end Schema
end SchemaCompiler
