import SchemaCompiler.Proofs.Client.Obstacles

/-!
# What stops a client

A client is made for an entry or for a namespace. It is converted from the tree of the entry
and from those of what functions take and return. What stops the conversion of one of the trees
stops that of the client, and nothing else does once each of them is there.
-/

namespace SchemaCompiler
namespace Client

open SchemaCompiler.Outcome
open SchemaCompiler.Schema
open Relation

/-! ## Conversions of single trees -/

section Trees

variable
  {registry : Registry}
  {index : TypeIndex}
  {path : FieldPath}

/-- The references that a tree meets first are pending. -/
theorem pending_of_frontier
    {tree reference : Node}
    (member : reference ∈ tree.frontier) :
    registry.inlined.Pending tree [] reference :=
  ⟨.start member, fun _ inside => absurd inside List.not_mem_nil⟩

/-- The struct of an object is converted from what is below the object. -/
theorem guarded_convertRoot
    [Name.Lettering]
    {name : String}
    {node tree : Node}
    (isObject : node.isObject = true)
    (same : tree.frontier = node.references) :
    Guarded registry tree [] tree.frontier (convertRoot registry index name path node) := by
  cases node with
  | scalar declaration facets => cases facets <;> cases isObject
  | array declaration facets element => cases isObject
  | object declaration facets children =>
      rw [Node.references_object] at same
      refine ((guarded_conversion registry index tree).1 _ _ _ _ _ ?_ ?_).of_subset ?_
      · intro reference member
        rw [Node.mem_flatMap_sorted, ← same] at member
        exact pending_of_frontier member
      · intro sibling isSibling first member
        have below : first ∈ children.flatMap Node.frontier :=
          List.mem_flatMap.mpr ⟨sibling, isSibling, member⟩
        rw [← same] at below
        exact .start below
      · intro reference member
        rwa [Node.mem_flatMap_sorted, ← same]

/-- The client of an object entry is converted from what is below the entry. -/
theorem guarded_convertEntry
    [Name.Lettering]
    {id : String}
    {root : Node}
    (found : registry.root id = .ok root)
    (isObject : root.isObject = true) :
    Guarded registry root.unreferenced [] root.unreferenced.frontier
      (convertEntry registry index id) := by
  rw [convertEntry, found, ok_bind, isObject]
  exact (guarded_convertRoot isObject root.frontier_unreferenced).map _ fun _ => ⟨_, rfl⟩

/-- The input of a function is converted from what the function takes. -/
theorem guarded_convertInput
    [Name.Lettering]
    {lead : String}
    {function : Function}
    {taken : Node}
    (itemized : function.itemizedInput = .ok taken) :
    Guarded registry taken [] taken.frontier (convertInput registry index lead function) := by
  rw [convertInput, itemized, ok_bind]
  obtain ⟨children, -, made⟩ := bind_eq_ok_iff.mp itemized
  cases made
  exact (guarded_convertRoot rfl (Node.frontier_of_reference?_none rfl)).map _ fun _ => ⟨_, rfl⟩

/-- The output of a function is converted from what the function returns. -/
theorem guarded_convertOutput
    [Name.Lettering]
    {name : String}
    {output : Node} :
    Guarded registry output [] output.frontier
      (convertOutput registry index name path output) := by
  have pending : ∀ reference ∈ output.frontier, registry.inlined.Pending output [] reference :=
    fun _ => pending_of_frontier
  rw [convertOutput]
  have opened : Guarded registry output [] [] (registry.resolveAt path output) :=
    .resolveAt fun _ => .start
  refine opened.bind fun canonical resolved => ?_
  dsimp only
  split
  next inPlace =>
    rw [Bool.and_eq_true, Bool.not_eq_true', Node.isReference, Option.isSome_eq_false_iff,
      Option.isNone_iff_eq_none] at inPlace
    obtain ⟨isObject, plain⟩ := inPlace
    rw [Registry.resolveAt_of_reference?_none registry path plain] at resolved
    obtain rfl : output = canonical := Except.ok.inj resolved
    exact (guarded_convertRoot isObject (Node.frontier_of_reference?_none plain)).map _
      fun _ => ⟨_, rfl⟩
  next =>
    exact ((guarded_conversion registry index output).2.1 _ _ _ _ _ pending).map _
      fun _ => ⟨_, rfl⟩

end Trees

/-! ## Conversions of functions -/

section Functions

variable
  {registry : Registry}
  {index : TypeIndex}
  {namespaceType : String}
  {function : Function}
  {functions : List (OperationKind × Function)}
  {cause : SchemaError}
  {definitions : Definitions}

/-- The function takes or returns a value of the tree. -/
inductive FunctionTree (function : Function) : Node → Prop
  | input {taken : Node} : function.itemizedInput = .ok taken → FunctionTree function taken
  | output {node : Node} : function.output = some node → FunctionTree function node

/-- A function fails to convert if what it takes is not one object, or one of its trees is
stopped. -/
theorem stops_of_convertFunction
    [Name.Lettering]
    (failed : convertFunction registry index namespaceType function = .error cause) :
    function.itemizedInput = .error cause ∨
      ∃ tree, FunctionTree function tree ∧ Stops registry tree cause := by
  cases itemized : function.itemizedInput with
  | error other =>
      rw [convertFunction, convertInput, itemized] at failed
      exact .inl (congrArg _ (Except.error.inj failed))
  | ok taken =>
      right
      rcases bind_eq_error_iff.mp failed with failed | ⟨input, -, failed⟩
      · exact ⟨taken, .input itemized, (guarded_convertInput itemized).stops cause failed⟩
      · split at failed
        · cases failed
        next node returned =>
          rcases bind_eq_error_iff.mp failed with failed | ⟨output, -, impossible⟩
          · exact ⟨node, .output returned, guarded_convertOutput.stops cause failed⟩
          · cases impossible

/-- A function that converts has clear trees. -/
theorem clear_of_convertFunction
    [Name.Lettering]
    (made : convertFunction registry index namespaceType function = .ok definitions)
    {tree : Node}
    (isTree : FunctionTree function tree) :
    ∀ reference ∈ tree.frontier, registry.inlined.Clear [] reference := by
  obtain ⟨input, convertedInput, made⟩ := bind_eq_ok_iff.mp made
  cases isTree with
  | input itemized => exact (guarded_convertInput itemized).clear input convertedInput
  | output returned =>
      rw [returned] at made
      obtain ⟨output, convertedOutput, -⟩ := bind_eq_ok_iff.mp made
      exact guarded_convertOutput.clear output convertedOutput

/-- Functions fail to convert if one of them does. -/
theorem exists_of_convertFunctions_error
    [Name.Lettering]
    (failed : convertFunctions registry index namespaceType functions = .error cause) :
    ∃ entry ∈ functions, convertFunction registry index namespaceType entry.2 = .error cause := by
  induction functions with
  | nil => cases failed
  | cons entry rest hypothesis =>
      rcases bind_eq_error_iff.mp failed with failed | ⟨first, -, failed⟩
      · exact ⟨entry, List.mem_cons_self, failed⟩
      · rcases bind_eq_error_iff.mp failed with failed | ⟨others, -, impossible⟩
        · obtain ⟨later, member, failed⟩ := hypothesis failed
          exact ⟨later, List.mem_cons_of_mem entry member, failed⟩
        · cases impossible

/-- Functions convert if each of them does. -/
theorem exists_of_convertFunctions_ok
    [Name.Lettering]
    (made : convertFunctions registry index namespaceType functions = .ok definitions) :
    ∀ entry ∈ functions, ∃ own,
      convertFunction registry index namespaceType entry.2 = .ok own := by
  induction functions generalizing definitions with
  | nil => exact List.forall_mem_nil _
  | cons entry rest hypothesis =>
      obtain ⟨first, converted, made⟩ := bind_eq_ok_iff.mp made
      obtain ⟨others, convertedRest, -⟩ := bind_eq_ok_iff.mp made
      exact List.forall_mem_cons.mpr ⟨⟨first, converted⟩, hypothesis convertedRest⟩

end Functions

/-! ## Conversions of clients -/

/-- What a client is made for: one entry, or the entry and the functions of a namespace. -/
inductive Request where
  | entry (id : String)
  | managed (owner : Namespace)

namespace Request

/-- The id of the entry. -/
def schema : Request → String
  | .entry id => id
  | .managed owner => owner.schema

/-- The functions, if there are any. -/
def functions : Request → List (OperationKind × Function)
  | .entry _ => []
  | .managed owner => owner.functions

/-- The definitions of the client. -/
def convert
    [Name.Lettering]
    (registry : Registry)
    (index : TypeIndex) : Request → Except SchemaError Definitions
  | .entry id => convertEntry registry index id
  | .managed owner => convertNamespace registry index owner

/-- The trees that a client is converted from. An entry is converted as it stands: a reference
of its own is not looked at. -/
inductive HasTree (registry : Registry) (request : Request) : Node → Prop
  | entry {root : Node} :
      registry.root request.schema = .ok root →
      HasTree registry request root.unreferenced
  | function {entry : OperationKind × Function} {tree : Node} :
      entry ∈ request.functions →
      FunctionTree entry.2 tree →
      HasTree registry request tree

/-- What can stop the conversion of a client: there is no such object entry, the names of what a
function takes collide, or one of the trees is stopped. -/
inductive Stops (registry : Registry) (request : Request) : SchemaError → Prop
  | missing {cause : SchemaError} :
      registry.root request.schema = .error cause →
      Stops registry request cause
  | notObject {root : Node} :
      registry.root request.schema = .ok root →
      root.isObject = false →
      Stops registry request (.rootNotObject (FieldPath.single request.schema) root.kind)
  | inputs {entry : OperationKind × Function} {cause : SchemaError} :
      entry ∈ request.functions →
      entry.2.itemizedInput = .error cause →
      Stops registry request cause
  | tree {tree : Node} {cause : SchemaError} :
      request.HasTree registry tree →
      Client.Stops registry tree cause →
      Stops registry request cause

variable
  {registry : Registry}
  {index : TypeIndex}
  {request : Request}
  {cause : SchemaError}
  {definitions : Definitions}

theorem stops_of_convertEntry
    [Name.Lettering]
    (request : Request)
    (failed : convertEntry registry index request.schema = .error cause) :
    request.Stops registry cause := by
  cases found : registry.root request.schema with
  | error other =>
      rw [convertEntry, found, error_bind] at failed
      cases failed
      exact .missing found
  | ok root =>
      cases isObject : root.isObject with
      | false =>
          rw [convertEntry, found, ok_bind, isObject] at failed
          cases failed
          exact .notObject found isObject
      | true =>
          exact .tree (.entry found) ((guarded_convertEntry found isObject).stops cause failed)

/-- The conversion of a client fails for a reason. -/
theorem stops_of_convert
    [Name.Lettering]
    (failed : request.convert registry index = .error cause) :
    request.Stops registry cause := by
  cases request with
  | entry id => exact stops_of_convertEntry (.entry id) failed
  | managed owner =>
      rcases bind_eq_error_iff.mp failed with failed | ⟨entry, -, failed⟩
      · exact stops_of_convertEntry (.managed owner) failed
      rcases bind_eq_error_iff.mp failed with failed | ⟨functions, -, impossible⟩
      · obtain ⟨entry, member, failed⟩ := exists_of_convertFunctions_error failed
        rcases stops_of_convertFunction failed with itemized | ⟨tree, isTree, stops⟩
        · exact .inputs member itemized
        · exact .tree (.function member isTree) stops
      · cases impossible

theorem clear_of_convertEntry
    [Name.Lettering]
    (request : Request)
    (made : convertEntry registry index request.schema = .ok definitions)
    {root : Node}
    (found : registry.root request.schema = .ok root) :
    ∀ reference ∈ root.unreferenced.frontier, registry.inlined.Clear [] reference := by
  cases isObject : root.isObject with
  | false =>
      rw [convertEntry, found, ok_bind, isObject] at made
      cases made
  | true => exact (guarded_convertEntry found isObject).clear definitions made

/-- The conversion of a client comes through from clear trees only. -/
theorem clear_of_convert
    [Name.Lettering]
    (made : request.convert registry index = .ok definitions)
    {tree : Node}
    (hasTree : request.HasTree registry tree) :
    ∀ reference ∈ tree.frontier, registry.inlined.Clear [] reference := by
  cases request with
  | entry id =>
      cases hasTree with
      | entry found => exact clear_of_convertEntry (.entry id) made found
      | function member => cases member
  | managed owner =>
      obtain ⟨entry, convertedEntry, made⟩ := bind_eq_ok_iff.mp made
      obtain ⟨functions, convertedFunctions, -⟩ := bind_eq_ok_iff.mp made
      cases hasTree with
      | entry found => exact clear_of_convertEntry (.managed owner) convertedEntry found
      | function member isTree =>
          obtain ⟨own, converted⟩ := exists_of_convertFunctions_ok convertedFunctions _ member
          exact clear_of_convertFunction converted isTree

end Request
end Client
end SchemaCompiler
