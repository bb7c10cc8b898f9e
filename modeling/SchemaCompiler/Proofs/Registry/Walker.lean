import SchemaCompiler.Proofs.Registry.ExpandedWalk

/-!
# The steps of an expanding walk

A `Walker` is a walk between two of its steps: the ids in expansion, the places met so
far and the tasks still to do. `step` does the next task, and `after` the first ones
of a walk from its top node. The steps of a walk come to an end with the outcome of
`collect`, and all the while the ids in expansion are distinct ids of the registry.
-/

namespace SchemaCompiler
namespace Schema
namespace Registry

open Outcome

/-- What a walk still has to do. -/
inductive Task where
  /-- To visit a node. -/
  | enter (path : FieldPath) (depth : Nat) (node : Node)
  /-- To end the innermost expansion. -/
  | leave
deriving Repr

/-- A walk between two steps. -/
structure Walker where
  /-- Ids in expansion, the innermost first. -/
  stack : List String
  /-- Places met so far. -/
  visits : List Visit
  /-- What is left to do, the next task first. -/
  tasks : List Task
deriving Repr

/-- Tasks of the parts of a canonical node. -/
def tasksBelow [Name.Lettering] (path : FieldPath) (depth : Nat) : Node → List Task
  | .scalar _ _ => []
  | .array _ _ element => [.enter path (depth + 1) element]
  | .object _ _ children =>
      (Node.sorted children).map fun child => .enter (path.child child.name) (depth + 1) child

namespace Walker

/-- The walk after its next task; a walk without tasks stays as it is. -/
def step [Name.Lettering] (registry : Registry) (walker : Walker) : Except SchemaError Walker :=
  match walker.tasks with
  | [] => .ok walker
  | .leave :: tasks => .ok { walker with stack := walker.stack.tail, tasks := tasks }
  | .enter path depth node :: tasks =>
      match node.reference? with
      | none =>
          .ok ⟨walker.stack, walker.visits ++ [⟨path, node, node, depth, false⟩],
            tasksBelow path depth node ++ tasks⟩
      | some id =>
          match registry.target path node id with
          | .error cause => .error cause
          | .ok canonical =>
              if id ∈ walker.stack then .error (.referenceCycle path id)
              else
                .ok ⟨id :: walker.stack,
                  walker.visits ++ [⟨path, node, canonical, depth, false⟩],
                  tasksBelow path depth canonical ++ .leave :: tasks⟩

/-- The walk after a number of tasks. -/
def run [Name.Lettering] (registry : Registry) : Nat → Walker → Except SchemaError Walker
  | 0, walker => .ok walker
  | steps + 1, walker => walker.step registry >>= run registry steps

/-- The walk at its top node, which always opens. -/
def start [Name.Lettering] (registry : Registry) (root : Node) : Except SchemaError Walker := do
  let canonical ← registry.resolveAt FieldPath.root root
  return ⟨root.reference?.toList, [⟨FieldPath.root, root, canonical, 0, false⟩],
    tasksBelow FieldPath.root 0 canonical⟩

/-- The walk from a top node after a number of tasks. -/
def after
    [Name.Lettering]
    (registry : Registry)
    (root : Node)
    (steps : Nat) : Except SchemaError Walker :=
  start registry root >>= run registry steps

/-- The walk failed, or it has nothing left to do, with this outcome. -/
def Ended
    (state : Except SchemaError Walker)
    (outcome : Except SchemaError (List Visit)) : Prop :=
  match state with
  | .error cause => outcome = .error cause
  | .ok walker => walker.tasks = [] ∧ outcome = .ok walker.visits

/-- The ids in expansion are distinct ids of the registry. -/
structure Sound (registry : Registry) (walker : Walker) : Prop where
  distinct : walker.stack.Nodup
  registered : ∀ id ∈ walker.stack, id ∈ registry.ids

theorem run_add
    [Name.Lettering]
    (registry : Registry)
    (first second : Nat)
    (walker : Walker) :
    run registry (first + second) walker =
      run registry first walker >>= run registry second := by
  induction first generalizing walker with
  | zero => rw [Nat.zero_add, run, ok_bind]
  | succ first hypothesis =>
      rw [Nat.succ_add, run, run]
      cases walker.step registry with
      | error cause => rfl
      | ok next => exact hypothesis next

/-- The outcome of some tasks of a walk: after finitely many steps they are done and
have added their places, or the walk has failed. -/
def Performs
    [Name.Lettering]
    (registry : Registry)
    (stack : List String)
    (tasks : List Task)
    (outcome : Except SchemaError (List Visit)) : Prop :=
  ∀ visits later, ∃ steps,
    run registry steps ⟨stack, visits, tasks ++ later⟩ =
      outcome.map fun added => ⟨stack, visits ++ added, later⟩

theorem Performs.nil
    [Name.Lettering]
    (registry : Registry)
    (stack : List String) :
    Performs registry stack [] (.ok []) := by
  intro visits later
  exact ⟨0, by simp [run, Except.map]⟩

/-- Tasks are performed one after the other. -/
theorem Performs.append
    [Name.Lettering]
    {registry : Registry}
    {stack : List String}
    {first second : List Task}
    {outcome : Except SchemaError (List Visit)}
    {next : Except SchemaError (List Visit)}
    (firstDone : Performs registry stack first outcome)
    (secondDone : Performs registry stack second next) :
    Performs registry stack (first ++ second) (do
      let added ← outcome
      let more ← next
      return added ++ more) := by
  intro visits later
  obtain ⟨steps, ran⟩ := firstDone visits (second ++ later)
  cases outcome with
  | error cause =>
      refine ⟨steps, ?_⟩
      rw [List.append_assoc, ran]
      rfl
  | ok added =>
      obtain ⟨others, ranOthers⟩ := secondDone (visits ++ added) later
      refine ⟨steps + others, ?_⟩
      rw [List.append_assoc, run_add, ran]
      refine Eq.trans ranOthers ?_
      cases next with
      | error cause => rfl
      | ok more => simp [Except.map]

theorem step_of_plain
    [Name.Lettering]
    {registry : Registry}
    {walker : Walker}
    {path : FieldPath}
    {depth : Nat}
    {node : Node}
    {later : List Task}
    (due : walker.tasks = .enter path depth node :: later)
    (plain : node.reference? = none) :
    walker.step registry =
      .ok ⟨walker.stack, walker.visits ++ [⟨path, node, node, depth, false⟩],
        tasksBelow path depth node ++ later⟩ := by
  simp [step, due, plain]

theorem step_of_unresolved
    [Name.Lettering]
    {registry : Registry}
    {walker : Walker}
    {path : FieldPath}
    {depth : Nat}
    {node : Node}
    {later : List Task}
    {id : String}
    {cause : SchemaError}
    (due : walker.tasks = .enter path depth node :: later)
    (named : node.reference? = some id)
    (failed : registry.target path node id = .error cause) :
    walker.step registry = .error cause := by
  simp [step, due, named, failed]

theorem step_of_inside
    [Name.Lettering]
    {registry : Registry}
    {walker : Walker}
    {path : FieldPath}
    {depth : Nat}
    {node canonical : Node}
    {later : List Task}
    {id : String}
    (due : walker.tasks = .enter path depth node :: later)
    (named : node.reference? = some id)
    (resolved : registry.target path node id = .ok canonical)
    (inside : id ∈ walker.stack) :
    walker.step registry = .error (.referenceCycle path id) := by
  simp [step, due, named, resolved, inside]

theorem step_of_opened
    [Name.Lettering]
    {registry : Registry}
    {walker : Walker}
    {path : FieldPath}
    {depth : Nat}
    {node canonical : Node}
    {later : List Task}
    {id : String}
    (due : walker.tasks = .enter path depth node :: later)
    (named : node.reference? = some id)
    (resolved : registry.target path node id = .ok canonical)
    (outside : id ∉ walker.stack) :
    walker.step registry =
      .ok ⟨id :: walker.stack, walker.visits ++ [⟨path, node, canonical, depth, false⟩],
        tasksBelow path depth canonical ++ .leave :: later⟩ := by
  simp [step, due, named, resolved, outside]

/-- A first step that fails ends the tasks. -/
theorem Performs.of_step_error
    [Name.Lettering]
    {registry : Registry}
    {stack : List String}
    {task : Task}
    {cause : SchemaError}
    (failed : ∀ visits later,
      step registry ⟨stack, visits, task :: later⟩ = .error cause) :
    Performs registry stack [task] (.error cause) := by
  intro visits later
  refine ⟨1, ?_⟩
  rw [List.singleton_append, run, failed]
  rfl

/-- The steps of a walk perform what a visit says. -/
theorem performs_visit [Name.Lettering] (registry : Registry) :
    (∀ stack path depth node,
      Performs registry stack [.enter path depth node]
        (registry.visit .expanded stack path depth node)) ∧
    ∀ stack path depth node,
      Performs registry stack (tasksBelow path depth node)
        (registry.descend .expanded stack path depth node) := by
  apply expanded_induct registry fun stack path depth children =>
    Performs registry stack
      (children.map fun child => .enter (path.child child.name) depth child)
      (registry.visitAll .expanded stack path depth children)
  case plain =>
    intro stack path depth node plain below visits later
    obtain ⟨steps, ran⟩ := below (visits ++ [⟨path, node, node, depth, false⟩]) later
    refine ⟨steps + 1, ?_⟩
    rw [List.singleton_append, run, step_of_plain rfl plain, ok_bind, ran,
      visit_of_plain plain]
    cases registry.descend .expanded stack path depth node with
    | error cause => rfl
    | ok inner => simp [Except.map]
  case unresolved =>
    intro stack path depth node id cause named failed
    rw [visit_of_unresolved named failed]
    exact .of_step_error fun visits later => step_of_unresolved rfl named failed
  case inside =>
    intro stack path depth node id canonical named resolved inside
    rw [visit_of_inside named resolved inside]
    exact .of_step_error fun visits later => step_of_inside rfl named resolved inside
  case opened =>
    intro stack path depth node id canonical named resolved outside below visits later
    obtain ⟨steps, ran⟩ :=
      below (visits ++ [⟨path, node, canonical, depth, false⟩]) (.leave :: later)
    -- one step opens the entry, `steps` walk through it, and one more closes it
    refine ⟨steps + 1 + 1, ?_⟩
    rw [List.singleton_append, run, step_of_opened rfl named resolved outside, ok_bind,
      run_add, ran, visit_of_opened named resolved outside]
    cases registry.descend .expanded (id :: stack) path depth canonical with
    | error cause => rfl
    | ok inner => simp [Except.map, run, step]
  case scalar =>
    intro stack path depth declaration facets
    rw [descend_scalar]
    exact .nil registry stack
  case array =>
    intro stack path depth declaration facets element hypothesis
    rw [descend_array]
    exact hypothesis
  case object =>
    intro stack path depth declaration facets children hypothesis
    rw [descend_object]
    exact hypothesis
  case nil =>
    intro stack path depth
    rw [visitAll_nil]
    exact .nil registry stack
  case cons =>
    intro stack path depth child rest first others
    rw [visitAll_cons, List.map_cons, ← List.singleton_append]
    exact first.append others

/-- The steps of a walk end with the outcome of `collect`. -/
theorem exists_ended_after
    [Name.Lettering]
    (registry : Registry)
    (root : Node) :
    ∃ steps, Ended (after registry root steps) (registry.collect .expanded root) := by
  rw [collect]
  unfold after start
  cases registry.resolveAt FieldPath.root root with
  | error cause => exact ⟨0, rfl⟩
  | ok canonical =>
      obtain ⟨steps, ran⟩ :=
        (performs_visit registry).2 root.reference?.toList FieldPath.root 0 canonical
          [⟨FieldPath.root, root, canonical, 0, false⟩] []
      rw [List.append_nil] at ran
      refine ⟨steps, ?_⟩
      show Ended (run registry steps _) _
      rw [ran]
      cases descended :
          registry.descend .expanded root.reference?.toList FieldPath.root 0 canonical with
      | error cause =>
          simp [Ended, Except.map, descended]
      | ok below =>
          simp [Ended, Except.map, descended]

/-- A step keeps the ids in expansion distinct and registered. -/
theorem Sound.step
    [Name.Lettering]
    {registry : Registry}
    {walker next : Walker}
    (sound : Sound registry walker)
    (stepped : walker.step registry = .ok next) :
    Sound registry next := by
  unfold Walker.step at stepped
  split at stepped
  · cases stepped
    exact sound
  · cases stepped
    exact ⟨sound.distinct.tail, fun id member => sound.registered id (List.mem_of_mem_tail member)⟩
  · split at stepped
    · cases stepped
      exact ⟨sound.distinct, sound.registered⟩
    next id named =>
      split at stepped
      · cases stepped
      next canonical resolved =>
        split at stepped
        · cases stepped
        next outside =>
          cases stepped
          refine ⟨List.nodup_cons.mpr ⟨outside, sound.distinct⟩, ?_⟩
          intro other member
          rcases List.mem_cons.mp member with rfl | inside
          · exact mem_ids_of_target resolved
          · exact sound.registered other inside

/-- So does every number of steps. -/
theorem Sound.run
    [Name.Lettering]
    {registry : Registry}
    {steps : Nat}
    {walker final : Walker}
    (sound : Sound registry walker)
    (ran : Walker.run registry steps walker = .ok final) :
    Sound registry final := by
  induction steps generalizing walker with
  | zero =>
      cases ran
      exact sound
  | succ steps hypothesis =>
      obtain ⟨next, stepped, rest⟩ := bind_eq_ok_iff.mp ran
      exact hypothesis (sound.step stepped) rest

/-- The ids in expansion are distinct ids of the registry at every step of a walk. -/
theorem sound_of_after
    [Name.Lettering]
    {registry : Registry}
    {root : Node}
    {steps : Nat}
    {walker : Walker}
    (reached : after registry root steps = .ok walker) :
    Sound registry walker := by
  obtain ⟨first, started, ran⟩ := bind_eq_ok_iff.mp reached
  obtain ⟨canonical, resolved, made⟩ := bind_eq_ok_iff.mp started
  refine Sound.run ?_ ran
  cases made
  cases named : root.reference? with
  | none => exact ⟨.nil, by simp⟩
  | some id =>
      rw [resolveAt, named] at resolved
      refine ⟨by simp, ?_⟩
      intro other member
      rw [Option.toList_some, List.mem_singleton] at member
      exact member ▸ mem_ids_of_target resolved

end Walker
end Registry
end Schema
end SchemaCompiler
