import Mathlib.Data.List.TakeWhile
import SchemaCompiler.Name.Standard
import SchemaCompiler.Proofs.Order.Table
import SchemaCompiler.Proofs.Registry.Nesting

/-!
# Walks that leave references closed

A walk that expands references lists everything that one with closed references lists, and
more. In the flat list the more is what follows a reference and is deeper than it: without it,
and with the references marked, the list is that of the other walk.
-/

namespace SchemaCompiler
namespace Schema

open Outcome (bind_eq_ok_iff)

namespace Visit

/-- The places of a pre-order list without those inside references, which are marked as closed.
What is inside a place follows it directly and is deeper. -/
def pruned : List Visit → List Visit
  | [] => []
  | visit :: rest =>
      if visit.node.isReference then
        { visit with isClosed := true } :: pruned (rest.dropWhile (visit.depth < ·.depth))
      else visit :: pruned rest
termination_by visits => visits.length
decreasing_by
  · exact Nat.lt_succ_of_le (List.dropWhile_sublist _).length_le
  · exact Nat.lt_succ_self _

variable {depth : Nat}

@[simp] theorem pruned_nil : pruned [] = [] := by rw [pruned]

/-- A place that is no reference stays as it is. -/
theorem pruned_cons_of_plain
    {visit : Visit}
    (plain : visit.node.reference? = none)
    (rest : List Visit) :
    pruned (visit :: rest) = visit :: pruned rest := by
  rw [pruned, if_neg (by simp [Node.isReference, plain])]

/-- A reference is marked, and what is deeper behind it is left out. -/
theorem pruned_cons_of_reference
    {visit : Visit}
    {id : String}
    (named : visit.node.reference? = some id)
    (rest : List Visit) :
    pruned (visit :: rest) =
      { visit with isClosed := true } :: pruned (rest.dropWhile (visit.depth < ·.depth)) := by
  rw [pruned, if_pos (by simp [Node.isReference, named])]

/-- Pruning leaves out what is deeper than a reference, and goes on behind anything else. -/
theorem pruned_induct
    {motive : List Visit → Prop}
    (nil : motive [])
    (reference : ∀ visit rest id, visit.node.reference? = some id →
      motive (rest.dropWhile (visit.depth < ·.depth)) → motive (visit :: rest))
    (plain : ∀ visit rest, visit.node.reference? = none → motive rest → motive (visit :: rest))
    (visits : List Visit) :
    motive visits := by
  refine pruned.induct motive nil (fun visit rest isReference => ?_)
    (fun visit rest isPlain => ?_) visits
  · obtain ⟨id, named⟩ := Option.isSome_iff_exists.mp isReference
    exact reference visit rest id named
  · exact plain visit rest (by simpa [Node.isReference] using isPlain)

/-- Nothing deeper is left of what is inside a place. -/
theorem dropWhile_of_deeper
    {visits : List Visit}
    (deeper : Deeper (depth + 1) visits) :
    visits.dropWhile (depth < ·.depth) = [] := by
  rw [List.dropWhile_eq_nil_iff]
  intro visit member
  exact decide_eq_true (deeper visit member)

/-- What follows a part of a list is pruned for itself, once it is no deeper than the part. -/
theorem pruned_append
    {first rest : List Visit}
    (deeper : Deeper depth first)
    (next : ∀ visit ∈ rest.head?, visit.depth = depth) :
    pruned (first ++ rest) = pruned first ++ pruned rest := by
  induction first using pruned_induct with
  | nil => rw [pruned_nil, List.nil_append, List.nil_append]
  | reference visit others id named hypothesis =>
      obtain ⟨deep, deeperOthers⟩ := List.forall_mem_cons.mp deeper
      -- the run behind the reference ends at the latest where the second part begins
      have ends : (others ++ rest).dropWhile (visit.depth < ·.depth) =
          others.dropWhile (visit.depth < ·.depth) ++ rest := by
        have stops : rest.dropWhile (visit.depth < ·.depth) = rest := by
          cases rest with
          | nil => rfl
          | cons start later =>
              have same : start.depth = depth := next start rfl
              exact List.dropWhile_cons_of_neg (by simpa [same] using deep)
        rw [List.dropWhile_append, stops]
        split
        next none => rw [List.isEmpty_iff.mp none, List.nil_append]
        next => rfl
      rw [List.cons_append, pruned_cons_of_reference named, pruned_cons_of_reference named, ends,
        List.cons_append]
      rw [hypothesis fun inner member =>
        deeperOthers inner (List.dropWhile_sublist _ |>.subset member)]
  | plain visit others plain hypothesis =>
      rw [List.cons_append, pruned_cons_of_plain plain, pruned_cons_of_plain plain,
        hypothesis (List.forall_mem_cons.mp deeper).2, List.cons_append]

end Visit

namespace Registry

variable
  {registry : Registry}
  {path : FieldPath}
  {depth : Nat}
  {node canonical : Node}
  {id : String}

/-- Where an expanding walk comes through, it lists no place as closed, and a walk that leaves
references closed lists what is left of its places when they are pruned. -/
def Prunes
    (expanded closed : Except SchemaError (List Visit)) : Prop :=
  ∀ visits, expanded = .ok visits →
    (∀ visit ∈ visits, visit.isClosed = false) ∧ closed = .ok (Visit.pruned visits)

/-- A walk that leaves references closed prunes the one that expands them, whatever is in
expansion. -/
theorem prunes_walk [Name.Lettering] (registry : Registry) :
    (∀ stack path depth node, ∀ inside, Prunes
      (registry.visit .expanded stack path depth node)
      (registry.visit .closed inside path depth node)) ∧
    ∀ stack path depth node, ∀ inside, Prunes
      (registry.descend .expanded stack path depth node)
      (registry.descend .closed inside path depth node) := by
  apply expanded_induct registry fun stack path depth children => ∀ inside, Prunes
    (registry.visitAll .expanded stack path depth children)
    (registry.visitAll .closed inside path depth children)
  case plain =>
    intro stack path depth node plain below inside visits walked
    rw [visit_of_plain plain, bind_eq_ok_iff] at walked
    obtain ⟨inner, descended, made⟩ := walked
    cases made
    obtain ⟨unmarked, closed⟩ := below inside inner descended
    refine ⟨List.forall_mem_cons.mpr ⟨rfl, unmarked⟩, ?_⟩
    rw [visit_of_plain plain, closed, Visit.pruned_cons_of_plain plain]
    rfl
  case unresolved =>
    intro stack path depth node id cause named failed inside visits walked
    rw [visit_of_unresolved named failed] at walked
    cases walked
  case inside =>
    intro stack path depth node id canonical named resolved known inside visits walked
    rw [visit_of_inside named resolved known] at walked
    cases walked
  case opened =>
    intro stack path depth node id canonical named resolved outside below inside visits walked
    rw [visit_of_opened named resolved outside, bind_eq_ok_iff] at walked
    obtain ⟨inner, descended, made⟩ := walked
    cases made
    obtain ⟨unmarked, -⟩ := below inside inner descended
    have deeper := (deeper_of_walk registry).2 _ _ _ _ _ descended
    refine ⟨List.forall_mem_cons.mpr ⟨rfl, unmarked⟩, ?_⟩
    rw [visit_of_closed named resolved, Visit.pruned_cons_of_reference named,
      Visit.dropWhile_of_deeper deeper, Visit.pruned_nil]
  case scalar =>
    intro stack path depth declaration facets inside visits walked
    rw [descend_scalar] at walked
    cases walked
    exact ⟨List.forall_mem_nil _, by rw [descend_scalar, Visit.pruned_nil]⟩
  case array =>
    intro stack path depth declaration facets element hypothesis inside
    rw [descend_array, descend_array]
    exact hypothesis inside
  case object =>
    intro stack path depth declaration facets children hypothesis inside
    rw [descend_object, descend_object]
    exact hypothesis inside
  case nil =>
    intro stack path depth inside visits walked
    rw [visitAll_nil] at walked
    cases walked
    exact ⟨List.forall_mem_nil _, by rw [visitAll_nil, Visit.pruned_nil]⟩
  case cons =>
    intro stack path depth child rest first others inside visits walked
    obtain ⟨inner, later, walkedFirst, walkedRest, rfl⟩ := exists_of_visitAll_cons walked
    obtain ⟨unmarkedFirst, closedFirst⟩ := first inside inner walkedFirst
    obtain ⟨unmarkedRest, closedRest⟩ := others inside later walkedRest
    refine ⟨List.forall_mem_append.mpr ⟨unmarkedFirst, unmarkedRest⟩, ?_⟩
    have deeper := (deeper_of_walk registry).1 _ _ _ _ _ walkedFirst
    rw [visitAll_cons, closedFirst, closedRest,
      Visit.pruned_append deeper (depth_of_head?_visitAll walkedRest)]
    rfl

/-- The dependencies of a tree are the ids of the references that a walk leaves closed. -/
theorem dependencies_eq_ok_iff
    [Name.Lettering]
    {root : Node}
    {ids : Order.NameSet} :
    registry.dependencies root = .ok ids ↔
      ∃ visits, registry.collect .closed root = .ok visits ∧
        ∀ id, id ∈ ids ↔ ∃ visit ∈ visits, visit.isClosed = true ∧
          visit.node.reference? = some id := by
  rw [dependencies, bind_eq_ok_iff]
  apply exists_congr
  intro visits
  apply and_congr_right
  intro walked
  have members : ∀ id, (id ∈ Order.NameSet.ofList
      ((visits.filter fun visit => visit.isClosed).filterMap fun visit => visit.node.reference?)) ↔
      ∃ visit ∈ visits, visit.isClosed = true ∧ visit.node.reference? = some id := by
    intro id
    simp only [Order.NameSet.mem_ofList, List.mem_filterMap, List.mem_filter, and_assoc]
  constructor
  · intro made
    cases made
    exact members
  · intro same
    refine congrArg Except.ok (Order.NameSet.ext_mem fun id => ?_)
    rw [members, same]

/-- A walk that expands references lists no place as closed. Where it comes through, so does the
walk that leaves references closed below the top, and its list is the other one pruned below
the top. The dependencies of a tree are the ids of the references that are closed then. -/
theorem closed_walk_is_pruned
    [Name.Lettering]
    (registry : Registry)
    (root : Node) :
    (∀ visits, registry.collect .expanded root = .ok visits →
      (∀ visit ∈ visits, visit.isClosed = false) ∧
      ∃ top below, visits = top :: below ∧
        registry.collect .closed root = .ok (top :: Visit.pruned below)) ∧
    ∀ ids, registry.dependencies root = .ok ids ↔
      ∃ visits, registry.collect .closed root = .ok visits ∧
        ∀ id, id ∈ ids ↔ ∃ visit ∈ visits, visit.isClosed = true ∧
          visit.node.reference? = some id := by
  refine ⟨fun visits walked => ?_, fun ids => dependencies_eq_ok_iff⟩
  rw [collect, bind_eq_ok_iff] at walked
  obtain ⟨canonical, resolved, rest⟩ := walked
  obtain ⟨below, descended, made⟩ := bind_eq_ok_iff.mp rest
  cases made
  obtain ⟨unmarked, closed⟩ :=
    (prunes_walk registry).2 _ _ _ _ root.reference?.toList below descended
  refine ⟨List.forall_mem_cons.mpr ⟨rfl, unmarked⟩, _, below, rfl, ?_⟩
  rw [collect, resolved, Outcome.ok_bind, closed]
  rfl

/-- A truth value. -/
def flagField (name : String) : Node := .scalar { name := name } (.bool {})

/-- A field that stands for an entry with one field. -/
def innerField : Node := .object { name := "inner", reference := some "inner" } {} []

/-- An entry that holds another one in front of a truth value. -/
def nestedRegistry : Registry :=
  ⟨.ofList [
    ("inner", .object { name := "inner" } {} [flagField "deep"]),
    ("outer", .object { name := "outer" } {} [innerField, flagField "last"])]⟩

/-- A tree that stands for the outer entry. -/
def outerRoot : Node := .object { name := "top", reference := some "outer" } {} []

/-- The places of the tree, where the inner reference is left closed or not and is followed by
what is inside it. -/
def nestedVisits (isClosed : Bool) (inside : List Visit) : List Visit :=
  ⟨.root, outerRoot, .object { name := "outer" } {} [innerField, flagField "last"], 0, false⟩ ::
    ⟨⟨["inner"]⟩, innerField, .object { name := "inner" } {} [flagField "deep"], 1, isClosed⟩ ::
    (inside ++ [⟨⟨["last"]⟩, flagField "last", flagField "last", 1, false⟩])

/-- The place of the truth value in the inner entry. -/
def deepVisit : Visit := ⟨⟨["inner", "deep"]⟩, flagField "deep", flagField "deep", 2, false⟩

theorem collect_expanded_outerRoot :
    nestedRegistry.collect .expanded outerRoot = .ok (nestedVisits false [deepVisit]) := by
  have resolved : nestedRegistry.resolveAt .root outerRoot =
      .ok (.object { name := "outer" } {} [innerField, flagField "last"]) := rfl
  have target : nestedRegistry.target (FieldPath.root.child innerField.name) innerField "inner" =
      .ok (.object { name := "inner" } {} [flagField "deep"]) := rfl
  have outside : "inner" ∉ outerRoot.reference?.toList := by decide
  have single : Node.sorted [flagField "deep"] = [flagField "deep"] := List.mergeSort_singleton _
  have both : Node.sorted [innerField, flagField "last"] = [innerField, flagField "last"] :=
    List.mergeSort_of_pairwise (by decide)
  have flag : ∀ name stack path depth,
      nestedRegistry.visit .expanded stack path depth (flagField name) =
        .ok [⟨path, flagField name, flagField name, depth, false⟩] := by
    intro name stack path depth
    rw [visit_of_plain rfl, flagField, descend_scalar]
    rfl
  rw [collect, resolved, Outcome.ok_bind, descend_object, both, visitAll_cons,
    visit_of_opened rfl target outside, descend_object, single, visitAll_cons, flag, visitAll_nil,
    visitAll_cons, flag, visitAll_nil]
  rfl

/-- The inner reference is left closed, and what it stands for is not listed. -/
theorem closed_walk_is_pruned_outerRoot :
    nestedRegistry.collect .expanded outerRoot = .ok (nestedVisits false [deepVisit]) ∧
      nestedRegistry.collect .closed outerRoot = .ok (nestedVisits true []) := by
  obtain ⟨-, top, below, same, closed⟩ :=
    (closed_walk_is_pruned nestedRegistry outerRoot).1 _ collect_expanded_outerRoot
  cases same
  have named : innerField.reference? = some "inner" := rfl
  have plain : (flagField "last").reference? = none := rfl
  refine ⟨collect_expanded_outerRoot, closed.trans ?_⟩
  rw [Visit.pruned_cons_of_reference named]
  -- the truth value inside the entry is deeper than the reference, and the one behind it is not
  change Except.ok (_ :: _ :: Visit.pruned [⟨⟨["last"]⟩, flagField "last", _, 1, false⟩]) = _
  rw [Visit.pruned_cons_of_plain plain, Visit.pruned_nil]
  rfl

end Registry
end Schema
end SchemaCompiler
