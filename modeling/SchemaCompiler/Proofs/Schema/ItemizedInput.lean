import SchemaCompiler.Proofs.Order.Table
import SchemaCompiler.Proofs.Schema.Reordering

/-!
# Itemized inputs

Parameters and body of a function become the children of one object if their names are
distinct. Otherwise the first input whose name has occurred is reported with both places. The
object is also filled one child after the other, with the places of all names so far in a table
of their own: table and object know the same names after every step, so that no child is ever
refused by the object.
-/

namespace SchemaCompiler
namespace Schema

/-- Of two declarations that a node is given, the latter stays. -/
@[simp] theorem Node.withDeclaration_withDeclaration
    (first second : Declaration)
    (node : Node) :
    (node.withDeclaration first).withDeclaration second = node.withDeclaration second := by
  cases node <;> rfl

namespace Function

open SchemaCompiler.Order (Table)
open SchemaCompiler.Outcome

/-- Names of everything a call takes: of the parameters, and that of the body if there is one. -/
def takenNames (function : Function) : List String :=
  function.pathParameters.map Node.name ++ function.queryParameters.map Node.name
    ++ function.body.toList.map fun _ => requestBodyName

/-- Everything a call takes, as it is declared but for its location and the name of the body. -/
def takenNodes (function : Function) : List Node :=
  function.pathParameters.map (locate .path) ++ function.queryParameters.map (locate .query)
    ++ function.body.toList.map fun body =>
      body.withDeclaration {
        body.declaration with name := requestBodyName, location := some .body }

/-- The object with the inputs as further children, where `places` has the places of the names
that have occurred. -/
def fill
    (function : Function)
    (places : Table Location)
    (object : Object) :
    List (Location × Node) → Except SchemaError Object
  | [] => .ok object
  | (location, node) :: rest =>
      match places.get? node.name with
      | some first => .error (.inputNameCollision function.name node.name first location)
      | none => do
          let next ← object.insert (FieldPath.single function.name) (locate location node)
          fill function (places.set node.name location) next rest

/-- The first input whose name has occurred is in the second place, and the input in front of it
that has the name is in the first. -/
def Collides (function : Function) (name : String) (first second : Location) : Prop :=
  ∃ front node behind earlier,
    function.locatedInputs = front ++ (second, node) :: behind ∧
      (front.map fun input => input.2.name).Nodup ∧
      (first, earlier) ∈ front ∧ earlier.name = name ∧ node.name = name

theorem map_name_locatedInputs (function : Function) :
    (function.locatedInputs.map fun input => input.2.name) = function.takenNames := by
  unfold locatedInputs takenNames Node.name
  cases function.body <;> simp [Function.comp_def]

theorem map_locate_locatedInputs (function : Function) :
    (function.locatedInputs.map fun input => locate input.1 input.2) = function.takenNodes := by
  unfold locatedInputs takenNodes locate
  cases function.body <;> simp [Function.comp_def]

theorem map_name_takenNodes (function : Function) :
    function.takenNodes.map Node.name = function.takenNames := by
  rw [← map_locate_locatedInputs, ← map_name_locatedInputs, List.map_map]
  exact List.map_congr_left fun input _ => name_locate input.1 input.2

/-- Inputs are itemized exactly if their names are distinct. -/
theorem itemizedInput_eq_ok_iff
    {function : Function}
    {input : Node} :
    function.itemizedInput = .ok input ↔
      function.takenNames.Nodup ∧
        input = .object { name := function.name } {} function.takenNodes := by
  rw [itemizedInput, bind_eq_ok_iff, ← map_name_locatedInputs, ← map_locate_locatedInputs]
  constructor
  · rintro ⟨children, itemized, ⟨⟩⟩
    obtain ⟨distinct, -, rfl⟩ := itemize_eq_ok_iff.mp itemized
    exact ⟨distinct, rfl⟩
  · rintro ⟨distinct, rfl⟩
    exact ⟨_, itemize_eq_ok_iff.mpr ⟨distinct, List.forall_mem_nil _, rfl⟩, rfl⟩

/-- Inputs behind others fail to be itemized at the first of them whose name has occurred. -/
theorem itemize_eq_error_iff
    {function : Function}
    {seen rest : List (Location × Node)}
    {cause : SchemaError}
    (distinct : (seen.map fun input => input.2.name).Nodup) :
    function.itemize seen rest = .error cause ↔
      ∃ front second node behind first earlier,
        rest = front ++ (second, node) :: behind ∧
          ((seen ++ front).map fun input => input.2.name).Nodup ∧
          (first, earlier) ∈ seen ++ front ∧ earlier.name = node.name ∧
          cause = .inputNameCollision function.name node.name first second := by
  induction rest generalizing seen with
  | nil => simp [itemize]
  | cons input rest hypothesis =>
      obtain ⟨location, node⟩ := input
      rw [itemize]
      split
      next first other found =>
        have known : (first, other) ∈ seen := List.mem_of_find?_eq_some found
        have same : other.name = node.name := by simpa using List.find?_some found
        constructor
        · rintro ⟨⟩
          exact ⟨[], location, node, rest, first, other, rfl, by simpa using distinct,
            by simpa using known, same, rfl⟩
        · rintro ⟨front, second, later, behind, place, earlier, parts, apart, member, again, rfl⟩
          cases front with
          | nil =>
              obtain ⟨⟨⟩, rfl⟩ := List.cons.inj parts
              rw [List.append_nil] at member
              have only := List.inj_on_of_nodup_map distinct member known (again.trans same.symm)
              rw [(Prod.mk.inj only).1]
          | cons head more =>
              obtain ⟨rfl, -⟩ := List.cons.inj parts
              rw [List.map_append, List.nodup_append] at apart
              exact absurd same (apart.2.2 _ (List.mem_map_of_mem known) _ List.mem_cons_self)
      next missing =>
        have fresh : ∀ earlier ∈ seen, earlier.2.name ≠ node.name := by
          simpa using List.find?_eq_none.mp missing
        have distinctNext :
            ((seen ++ [(location, node)]).map fun input => input.2.name).Nodup := by
          rw [List.map_append, List.nodup_append]
          refine ⟨distinct, List.nodup_singleton _, fun name known other latest => ?_⟩
          obtain ⟨earlier, member, rfl⟩ := List.mem_map.mp known
          obtain rfl := List.mem_singleton.mp latest
          exact fresh earlier member
        rw [bind_pure_eq_error_iff, hypothesis distinctNext]
        constructor
        · rintro ⟨front, second, later, behind, place, earlier, rfl, apart, member, again, rfl⟩
          exact ⟨(location, node) :: front, second, later, behind, place, earlier, rfl,
            by simpa using apart, by simpa using member, again, rfl⟩
        · rintro ⟨front, second, later, behind, place, earlier, parts, apart, member, again, rfl⟩
          cases front with
          | nil =>
              obtain ⟨⟨⟩, rfl⟩ := List.cons.inj parts
              rw [List.append_nil] at member
              exact (fresh _ member again).elim
          | cons head more =>
              obtain ⟨rfl, rfl⟩ := List.cons.inj parts
              exact ⟨more, second, later, behind, place, earlier, rfl, by simpa using apart,
                by simpa using member, again, rfl⟩

/-- Inputs fail to be itemized exactly by a name that occurs twice. -/
theorem itemize_locatedInputs_eq_error_iff
    {function : Function}
    {cause : SchemaError} :
    function.itemize [] function.locatedInputs = .error cause ↔
      ∃ name first second, function.Collides name first second ∧
        cause = .inputNameCollision function.name name first second := by
  have nothing : (([] : List (Location × Node)).map fun input => input.2.name).Nodup :=
    List.nodup_nil
  rw [itemize_eq_error_iff nothing]
  constructor
  · rintro ⟨front, second, node, behind, first, earlier, parts, distinct, member, same, rfl⟩
    exact ⟨node.name, first, second, ⟨front, node, behind, earlier, parts, distinct, member, same,
      rfl⟩, rfl⟩
  · rintro ⟨_, first, second, ⟨front, node, behind, earlier, parts, distinct, member, same, rfl⟩,
      rfl⟩
    exact ⟨front, second, node, behind, first, earlier, parts, distinct, member, same, rfl⟩

/-- The table and the object that inputs leave behind: both know their names and no others. -/
structure Filled
    (seen : List (Location × Node))
    (places : Table Location)
    (object : Object) : Prop where
  places (name : String) :
    places.get? name =
      (seen.find? fun (_, earlier) => earlier.name = name).map Prod.fst
  children : object.children = seen.map fun input => locate input.1 input.2

theorem Filled.empty : Filled [] .empty .empty := ⟨fun _ => rfl, rfl⟩

/-- An input with a new name is noted in the table and inserted into the object. -/
theorem Filled.insert
    {seen : List (Location × Node)}
    {places : Table Location}
    {object : Object}
    {location : Location}
    {node : Node}
    (filled : Filled seen places object)
    (missing : (seen.find? fun (_, earlier) => earlier.name = node.name) = none)
    (path : FieldPath) :
    ∃ next, object.insert path (locate location node) = .ok next ∧
      next = { object with children := object.children ++ [locate location node] } ∧
      Filled (seen ++ [(location, node)]) (places.set node.name location) next := by
  have fresh : ∀ earlier ∈ seen, earlier.2.name ≠ node.name := by
    simpa using List.find?_eq_none.mp missing
  have absent : ¬object.contains (locate location node).name = true := by
    rw [Object.contains, Node.hasChild_iff, filled.children, name_locate, List.map_map]
    rintro known
    obtain ⟨earlier, member, same⟩ := List.mem_map.mp known
    exact fresh earlier member ((name_locate _ _).symm.trans same)
  refine ⟨_, if_neg absent, rfl, fun name => ?_, ?_⟩
  · rw [Order.Table.get?_set, List.find?_append, filled.places]
    by_cases same : name = node.name
    · subst same
      rw [if_pos rfl, missing]
      simp
    · have other : ¬node.name = name := fun equal => same equal.symm
      simp [same, other]
  · rw [filled.children, List.map_append, List.map_singleton]

/-- Filling an object fails where itemizing fails, and never because the object has the name. -/
theorem fill_eq
    {seen : List (Location × Node)}
    {places : Table Location}
    {object : Object}
    (function : Function)
    (filled : Filled seen places object)
    (rest : List (Location × Node)) :
    function.fill places object rest =
      (function.itemize seen rest).map fun children =>
        { object with children := object.children ++ children } := by
  induction rest generalizing seen places object with
  | nil => simp [fill, itemize, Except.map]
  | cons input rest hypothesis =>
      obtain ⟨location, node⟩ := input
      rw [fill, itemize, filled.places]
      cases found : seen.find? fun (_, earlier) => earlier.name = node.name with
      | some earlier => rfl
      | none =>
          obtain ⟨next, inserted, rfl, filledNext⟩ :=
            filled.insert found (FieldPath.single function.name)
          dsimp only [Option.map_none]
          rw [inserted, ok_bind, hypothesis filledNext]
          cases function.itemize (seen ++ [(location, node)]) rest with
          | error cause => rfl
          | ok children => simp [Except.map]

/-- The object never refuses an input as a child whose name it has. -/
theorem fill_ne_duplicateField
    (function : Function)
    (path : FieldPath)
    (name : String) :
    function.fill .empty .empty function.locatedInputs ≠ .error (.duplicateField path name) := by
  intro refused
  rw [fill_eq function .empty] at refused
  cases itemized : function.itemize [] function.locatedInputs with
  | ok children =>
      rw [itemized] at refused
      cases refused
  | error cause =>
      rw [itemized] at refused
      cases refused
      obtain ⟨_, _, _, -, impossible⟩ := itemize_locatedInputs_eq_error_iff.mp itemized
      cases impossible

/-- The inputs of a function are itemized exactly if their names are distinct: as the children of
an object with the name of the function, in the order of declaration. Otherwise the first input
whose name has occurred is reported. Filling an object with the inputs has the same outcome, and
the object never refuses one of them. -/
theorem itemizes_distinct_inputs (function : Function) :
    (∀ input, function.itemizedInput = .ok input ↔
      function.takenNames.Nodup ∧
        input = .object { name := function.name } {} function.takenNodes) ∧
      (∀ cause, function.itemizedInput = .error cause ↔
        ∃ name first second, function.Collides name first second ∧
          cause = .inputNameCollision function.name name first second) ∧
      function.itemizedInput =
        (function.fill .empty .empty function.locatedInputs).map (fun object =>
          object.toNode { name := function.name }) ∧
      ∀ path name,
        function.fill .empty .empty function.locatedInputs ≠
          .error (.duplicateField path name) := by
  refine ⟨fun _ => itemizedInput_eq_ok_iff, fun cause => ?_, ?_, function.fill_ne_duplicateField⟩
  · rw [itemizedInput, bind_pure_eq_error_iff, itemize_locatedInputs_eq_error_iff]
  · rw [fill_eq function .empty, itemizedInput]
    cases function.itemize [] function.locatedInputs <;> rfl

end Function
end Schema
end SchemaCompiler
