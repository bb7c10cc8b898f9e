import SchemaCompiler.Name.Standard
import SchemaCompiler.Proofs.Client.Requests

/-!
# Where a client conversion ends

The conversion is followed here as a partial function: it looks whether a reference stands for
an object before it looks at the ids in expansion, and nothing is measured. It ends everywhere,
with the outcome of the conversion that counts the ids left. Among all that can stop it, a
reference inside itself is reported exactly where an entry that is no object leads back to
itself through such entries alone.
-/

namespace SchemaCompiler
namespace Client

open SchemaCompiler.Schema

/-- A step that ends with the outcome. -/
def ended (outcome : Except SchemaError α) : ExceptT SchemaError Option α :=
  ExceptT.mk (some outcome)

@[simp] theorem ended_ok_bind
    (value : α)
    (next : α → ExceptT SchemaError Option β) :
    (ended (.ok value) >>= next) = next value := rfl

@[simp] theorem ended_error_bind
    (cause : SchemaError)
    (next : α → ExceptT SchemaError Option β) :
    (ended (.error cause) >>= next) = ended (.error cause) := rfl

/-- Steps that end one after the other end together. -/
theorem ended_bind
    {outcome : Except SchemaError α}
    {next : α → ExceptT SchemaError Option β}
    {rest : α → Except SchemaError β}
    (ends : ∀ value, outcome = .ok value → next value = ended (rest value)) :
    (ended outcome >>= next) = ended (outcome >>= rest) := by
  cases outcome with
  | error cause => rfl
  | ok value => exact ends value rfl

end Client

namespace Schema
namespace Registry

open SchemaCompiler.Client
open SchemaCompiler.Key (Place Position)

mutual

/-- The struct of an object with the given children. -/
def followFields
    [Name.Lettering]
    (registry : Registry)
    (index : TypeIndex)
    (stack : List String)
    (owner : String)
    (path : FieldPath)
    (enclosing : List Place)
    (children : List Node) : ExceptT SchemaError Option (Struct × Emission) :=
  match children with
  | [] => ended (.ok ({ name := owner }, {}))
  | child :: rest => do
      let place := path.child child.name
      let canonical ← ended (registry.resolveAt place child)
      let methods ← ended (fieldKeyMethods registry place (Name.fieldName child.name)
        ⟨⟨child, canonical⟩, enclosing⟩)
      let (type, emission) ← registry |>.followType index stack owner place enclosing
        child canonical
      let (struct, others) ← registry |>.followFields index stack owner path enclosing rest
      ended (.ok ({ struct with
        fields := fieldOf child canonical type :: struct.fields
        keyMethods := methods ++ struct.keyMethods }, emission ++ others))
partial_fixpoint

/-- Type of a node that resolves to `canonical`. -/
def followType
    [Name.Lettering]
    (registry : Registry)
    (index : TypeIndex)
    (stack : List String)
    (owner : String)
    (path : FieldPath)
    (enclosing : List Place)
    (node canonical : Node) : ExceptT SchemaError Option (FieldType × Emission) :=
  match node.reference? with
  | none => registry |>.followCanonical index stack owner path enclosing node canonical
  | some id =>
      if canonical.isObject then
        ended (.ok (.named (index.classOf id), { dependencies := [id] }))
      else if id ∈ stack then ended (.error (.referenceCycle path id))
      else registry |>.followCanonical index (id :: stack) owner path enclosing node canonical
partial_fixpoint

/-- Type of what a node resolves to. -/
def followCanonical
    [Name.Lettering]
    (registry : Registry)
    (index : TypeIndex)
    (stack : List String)
    (owner : String)
    (path : FieldPath)
    (enclosing : List Place)
    (node canonical : Node) : ExceptT SchemaError Option (FieldType × Emission) :=
  match canonical with
  | .scalar _ facets => ended (.ok (Client.scalarType facets, {}))
  | .array declaration facets element => do
      let place : Place := ⟨node, .array declaration facets element⟩
      let inner ← ended (registry.resolveAt path element)
      let (type, emission) ← registry |>.followType index stack owner path (place :: enclosing)
        element inner
      ended (.ok (.list type, emission))
  | .object declaration facets children => do
      let place : Place := ⟨node, .object declaration facets children⟩
      let name := nestedName owner (Position.mk place enclosing).internalName
      let (struct, emission) ← registry |>.followFields index stack name path (place :: enclosing)
        (Node.sorted children)
      let documented := { struct with documentation := .ofOption declaration.description }
      ended (.ok (.named name, emission ++ { structs := [documented] }))
partial_fixpoint

end

/-- The ids are of entries that are no objects. -/
def AreInlined (registry : Registry) (stack : List String) : Prop :=
  ∀ id ∈ stack, ∃ entry, registry.inlined.get? id = some entry

/-- A reference to an id in expansion stands for no object. -/
theorem AreInlined.isObject_eq_false
    {registry : Registry}
    {stack : List String}
    {path : FieldPath}
    {node canonical : Node}
    {id : String}
    (inlined : registry.AreInlined stack)
    (inside : id ∈ stack)
    (resolved : registry.target path node id = .ok canonical) :
    canonical.isObject = false := by
  obtain ⟨entry, foundInlined⟩ := inlined id inside
  obtain ⟨foundEntry, plain⟩ := get?_inlined_eq_some_iff.mp foundInlined
  have found := (target_eq_ok_iff.mp resolved).1
  obtain rfl : canonical = entry := Option.some.inj (found.symm.trans foundEntry)
  exact plain

/-- The ids stay those of entries that are no objects when one of them is written out. -/
theorem AreInlined.cons
    {registry : Registry}
    {stack : List String}
    {path : FieldPath}
    {node canonical : Node}
    {id : String}
    (inlined : registry.AreInlined stack)
    (resolved : registry.target path node id = .ok canonical)
    (plain : canonical.isObject = false) :
    registry.AreInlined (id :: stack) :=
  List.forall_mem_cons.mpr
    ⟨⟨_, get?_inlined_eq_some_iff.mpr ⟨(target_eq_ok_iff.mp resolved).1, plain⟩⟩, inlined⟩

/-- Where a node resolves, its reference has that target. -/
theorem target_of_resolveAt
    {registry : Registry}
    {path : FieldPath}
    {node canonical : Node}
    {id : String}
    (named : node.reference? = some id)
    (resolved : registry.resolveAt path node = .ok canonical) :
    registry.target path node id = .ok canonical := by
  rw [resolveAt, named] at resolved
  exact resolved

/-- The conversion that is followed ends with the outcome of the conversion that is measured, if
no object is in expansion. -/
theorem follow_eq_ended [Name.Lettering] (registry : Registry) (index : TypeIndex) :
    (∀ stack owner path enclosing children,
      registry.AreInlined stack →
      registry.followFields index stack owner path enclosing children =
        ended (Client.convertFields registry index stack owner path enclosing children)) ∧
    (∀ stack owner path enclosing node,
      registry.AreInlined stack →
      ∀ canonical, registry.resolveAt path node = .ok canonical →
        registry.followType index stack owner path enclosing node canonical =
          ended (convertType registry index stack owner path enclosing node)) ∧
    ∀ stack owner path enclosing node canonical,
      registry.AreInlined stack →
      registry.followCanonical index stack owner path enclosing node canonical =
        ended (Client.convertCanonical registry index stack owner path enclosing node
          canonical) := by
  apply expansion_induct registry
  case nil =>
    intro stack owner path enclosing inlined
    rw [followFields, Client.convertFields]
  case cons =>
    intro stack owner path enclosing child rest ofChild ofRest inlined
    rw [followFields, Client.convertFields]
    refine ended_bind fun canonical resolved => ended_bind fun methods _ => ?_
    rw [ofChild inlined canonical resolved]
    refine ended_bind fun made _ => ?_
    rw [ofRest inlined]
    exact ended_bind fun others _ => rfl
  case plain =>
    intro stack owner path enclosing node named ofCanonical inlined canonical resolved
    rw [resolveAt_of_reference?_none registry path named] at resolved
    obtain rfl : node = canonical := Except.ok.inj resolved
    rw [followType, named, convertType_of_plain named]
    exact ofCanonical inlined
  case unresolved =>
    intro stack owner path enclosing node id cause named failed inlined canonical resolved
    cases failed.symm.trans resolved
  case inside =>
    intro stack owner path enclosing node id target named found inside inlined canonical resolved
    obtain rfl : target = canonical :=
      Except.ok.inj (found.symm.trans (target_of_resolveAt named resolved))
    have plain := inlined.isObject_eq_false inside found
    rw [followType, named, convertType_of_inside named found inside]
    simp [plain, inside]
  case closed =>
    intro stack owner path enclosing node id target named found outside isObject inlined canonical
      resolved
    obtain rfl : target = canonical :=
      Except.ok.inj (found.symm.trans (target_of_resolveAt named resolved))
    rw [followType, named, convertType_of_object named found outside isObject]
    simp [isObject]
  case inlined =>
    intro stack owner path enclosing node id target named found outside plain ofCanonical inlined
      canonical resolved
    obtain rfl : target = canonical :=
      Except.ok.inj (found.symm.trans (target_of_resolveAt named resolved))
    rw [followType, named, convertType_of_inlined named found outside plain,
      ← ofCanonical (inlined.cons found plain)]
    simp [plain, outside]
  case scalar =>
    intro stack owner path enclosing node declaration facets inlined
    rw [followCanonical, Client.convertCanonical]
  case array =>
    intro stack owner path enclosing node declaration facets element ofElement inlined
    rw [followCanonical, Client.convertCanonical]
    cases resolved : registry.resolveAt path element with
    | error cause =>
        rw [ended_error_bind, convertType_of_unresolved resolved]
        rfl
    | ok inner =>
        rw [ended_ok_bind, ofElement inlined inner resolved]
        exact ended_bind fun made _ => rfl
  case object =>
    intro stack owner path enclosing node declaration facets children ofChildren inlined
    rw [followCanonical, Client.convertCanonical, ofChildren inlined]
    exact ended_bind fun made _ => rfl

end Registry
end Schema

namespace Client

open SchemaCompiler.Outcome
open SchemaCompiler.Schema
open Relation

/-! ## Cycles that are reported -/

/-- Inputs that do not make up one object are never reported as a reference inside itself. -/
theorem itemizedInput_ne_cycle
    {function : Function}
    {path : FieldPath}
    {id : String} :
    function.itemizedInput ≠ .error (.referenceCycle path id) := by
  have itemize_ne_cycle : ∀ inputs seen,
      function.itemize seen inputs ≠ .error (.referenceCycle path id) := by
    intro inputs
    induction inputs with
    | nil =>
        intro seen impossible
        cases impossible
    | cons input rest hypothesis =>
        intro seen failed
        rw [Function.itemize] at failed
        split at failed
        · cases failed
        · rcases bind_eq_error_iff.mp failed with failed | ⟨others, -, impossible⟩
          · exact hypothesis _ failed
          · cases impossible
  intro failed
  rcases bind_eq_error_iff.mp failed with failed | ⟨children, -, impossible⟩
  · exact itemize_ne_cycle _ _ failed
  · cases impossible

/-- A client that is stopped at a reference inside itself reaches an id that leads back to
itself through entries written out. -/
theorem Request.cycle_of_stops
    {registry : Registry}
    {request : Request}
    {path : FieldPath}
    {id : String}
    (stops : request.Stops registry (.referenceCycle path id)) :
    (∃ tree, request.HasTree registry tree ∧ registry.inlined.Reaches tree id) ∧
      TransGen registry.inlined.Leads id id := by
  cases stops with
  | missing failed =>
      unfold Registry.root at failed
      split at failed <;> cases failed
  | inputs member failed => exact absurd failed itemizedInput_ne_cycle
  | tree hasTree stops =>
      cases stops with
      | key aboutKey => cases aboutKey
      | unresolved met failed => exact absurd failed Registry.resolveAt_ne_cycle
      | cycle reached back => exact ⟨⟨_, hasTree, reached⟩, back⟩

/-- A client conversion ends, and it rejects exactly the cycles that it would write out. It is
stopped by the entry, the inputs, a key, a reference that does not resolve, or a reference
inside itself. The latter is an entry that is no object and leads back to itself through such
entries alone; and where one of the trees reaches such an entry, the conversion fails. -/
theorem conversion_rejects_inlined_cycles
    [Name.Lettering]
    (registry : Registry)
    (index : TypeIndex) :
    (∀ owner path enclosing children,
      registry.followFields index [] owner path enclosing children =
        ended (convertFields registry index [] owner path enclosing children)) ∧
    (∀ owner path enclosing node canonical,
      registry.resolveAt path node = .ok canonical →
      registry.followType index [] owner path enclosing node canonical =
        ended (convertType registry index [] owner path enclosing node)) ∧
    ∀ request : Request,
      (∀ cause, request.convert registry index = .error cause →
        request.Stops registry cause) ∧
      (∀ path id, request.convert registry index = .error (.referenceCycle path id) →
        (∃ entry, registry.get? id = some entry ∧ entry.isObject = false) ∧
          (∃ tree, request.HasTree registry tree ∧ registry.inlined.Reaches tree id) ∧
            TransGen registry.inlined.Leads id id) ∧
      ∀ tree id, request.HasTree registry tree →
        registry.inlined.Reaches tree id →
        TransGen registry.inlined.Leads id id →
        ∃ cause, request.convert registry index = .error cause := by
  have noneInside : registry.AreInlined [] := List.forall_mem_nil _
  refine ⟨?_, ?_, fun request => ⟨?_, ?_, ?_⟩⟩
  · intro owner path enclosing children
    exact (Registry.follow_eq_ended registry index).1 _ _ _ _ _ noneInside
  · intro owner path enclosing node canonical
    exact (Registry.follow_eq_ended registry index).2.1 _ _ _ _ _ noneInside canonical
  · exact fun cause => Request.stops_of_convert
  · intro path id failed
    obtain ⟨reached, back⟩ := Request.cycle_of_stops (Request.stops_of_convert failed)
    exact ⟨Registry.exists_entry_of_transGen_inlined back, reached, back⟩
  · intro tree id hasTree reached back
    cases outcome : request.convert registry index with
    | error cause => exact ⟨cause, rfl⟩
    | ok definitions =>
        exact absurd back
          (Registry.not_transGen_of_clear (Request.clear_of_convert outcome hasTree) reached)

/-- A list that refers to an entry of lists. -/
def listPointer (name id : String) : Node :=
  .array { name := name, reference := some id } {} (.scalar {} (.int {}))

/-- An object that holds a list of lists without end. -/
def listHolder : Node := .object {} {} [listPointer "values" "nested"]

/-- The holder of the list, and two objects that hold each other. -/
def loopRegistry : Registry :=
  ⟨.ofList [
    ("holder", listHolder),
    ("left", .object {} {} [Registry.pointer "other" "right"]),
    ("nested", .array {} {} (listPointer "" "nested")),
    ("right", .object {} {} [Registry.pointer "other" "left"])]⟩

/-- The pointer between the objects stays closed. -/
theorem convertEntry_loopRegistry (index : TypeIndex) :
    ∃ definitions, convertEntry loopRegistry index "left" = .ok definitions := by
  have found : loopRegistry.root "left" =
      .ok (.object {} {} [Registry.pointer "other" "right"]) := rfl
  have resolved : ∀ path, loopRegistry.resolveAt path (Registry.pointer "other" "right") =
      .ok (.object {} {} [Registry.pointer "other" "left"]) := fun _ => rfl
  have keys : ∀ path field around, fieldKeyMethods loopRegistry path field
      ⟨⟨Registry.pointer "other" "right", .object {} {} [Registry.pointer "other" "left"]⟩,
        around⟩ = .ok [] := fun _ _ _ => rfl
  have type : ∀ owner path around, convertType loopRegistry index [] owner path around
      (Registry.pointer "other" "right") =
        .ok (.named (index.classOf "right"), { dependencies := ["right"] }) :=
    fun _ path _ => convertType_of_object rfl (resolved path) List.not_mem_nil rfl
  rw [convertEntry, found, ok_bind]
  dsimp only [convertRoot]
  rw [Node.sorted, List.mergeSort_singleton, convertFields, resolved, ok_bind]
  dsimp only
  rw [keys, ok_bind, type, ok_bind, convertFields]
  exact ⟨_, rfl⟩

/-- Of these, the objects have clients, and the holder of the list has none. -/
theorem conversion_rejects_inlined_cycles_loopRegistry :
    (∃ definitions, (Request.entry "left").convert loopRegistry (.build loopRegistry []) =
      .ok definitions) ∧
    ∃ cause, (Request.entry "holder").convert loopRegistry (.build loopRegistry []) =
      .error cause := by
  obtain ⟨-, -, conversion⟩ :=
    conversion_rejects_inlined_cycles loopRegistry (.build loopRegistry [])
  have found : loopRegistry.root "holder" = .ok listHolder := rfl
  have reached : loopRegistry.inlined.Reaches listHolder.unreferenced "nested" :=
    ⟨_, .start (List.mem_singleton.mpr rfl), rfl⟩
  have back : loopRegistry.inlined.Leads "nested" "nested" :=
    ⟨_, rfl, _, List.mem_singleton.mpr rfl, rfl⟩
  exact ⟨convertEntry_loopRegistry _,
    (conversion (.entry "holder")).2.2 _ "nested" (.entry found) reached (.single back)⟩

end Client
end SchemaCompiler
