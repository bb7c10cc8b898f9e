import SchemaCompiler.Name.Standard
import SchemaCompiler.Proofs.Registry.Components
import SchemaCompiler.Proofs.Registry.References
import SchemaCompiler.Proofs.Registry.Walker

/-!
# Cycles and expansion

A walk that expands references keeps those in expansion on a stack. Every id of the
stack leads to the references still to be met, so a reference inside itself is an id
that leads back to itself; and where the walk comes through, no id that can be
reached does.
-/

namespace SchemaCompiler
namespace Schema
namespace Registry

open Relation
open Outcome

/-- The ids in expansion lead to a reference that is met from the top node. -/
structure Pending
    (registry : Registry)
    (root : Node)
    (stack : List String)
    (reference : Node) : Prop where
  met : registry.Meets root reference
  led : ∀ source ∈ stack, ∀ target, reference.reference? = some target →
    TransGen registry.Leads source target

/-- What can end a walk: a reference that is met and does not resolve, or one whose id
leads back to itself. -/
def Explained
    (registry : Registry)
    (root : Node)
    (cause : SchemaError) : Prop :=
  (∃ path reference,
    registry.Meets root reference ∧ registry.resolveAt path reference = .error cause) ∨
  ∃ path id, cause = .referenceCycle path id ∧
    registry.Reaches root id ∧ TransGen registry.Leads id id

/-- Opening a pending reference leaves the references below its entry pending. -/
theorem Pending.opened
    {registry : Registry}
    {root node canonical reference : Node}
    {stack : List String}
    {path : FieldPath}
    {id : String}
    (pending : registry.Pending root stack node)
    (named : node.reference? = some id)
    (resolved : registry.target path node id = .ok canonical)
    (member : reference ∈ canonical.references) :
    registry.Pending root (id :: stack) reference := by
  refine ⟨pending.met.of_target named resolved member, ?_⟩
  intro source inside target below
  have last : registry.Leads id target := .of_target resolved member below
  rcases List.mem_cons.mp inside with rfl | outer
  · exact .single last
  · exact .tail (pending.led source outer id named) last

/-- A walk over pending references fails only for a reason. -/
theorem explained_of_error
    [Name.Lettering]
    (registry : Registry)
    (root : Node) :
    (∀ stack path depth node,
      (∀ reference ∈ node.frontier, registry.Pending root stack reference) →
      ∀ cause, registry.visit .expanded stack path depth node = .error cause →
        registry.Explained root cause) ∧
    ∀ stack path depth node,
      (∀ reference ∈ node.references, registry.Pending root stack reference) →
      ∀ cause, registry.descend .expanded stack path depth node = .error cause →
        registry.Explained root cause := by
  apply expanded_induct registry fun stack path depth children =>
    (∀ reference ∈ children.flatMap Node.frontier, registry.Pending root stack reference) →
    ∀ cause, registry.visitAll .expanded stack path depth children = .error cause →
      registry.Explained root cause
  case plain =>
    intro stack path depth node plain below pending cause failed
    rw [Node.frontier_of_reference?_none plain] at pending
    rw [visit_of_plain plain, bind_eq_error_iff] at failed
    rcases failed with failed | ⟨visits, _, impossible⟩
    · exact below pending cause failed
    · cases impossible
  case unresolved =>
    intro stack path depth node id cause named failed pending other ended
    rw [visit_of_unresolved named failed] at ended
    obtain rfl : cause = other := Except.error.inj ended
    have member := Node.mem_frontier_of_reference? named
    refine .inl ⟨path, node, (pending node member).met, ?_⟩
    rw [resolveAt, named]
    exact failed
  case inside =>
    intro stack path depth node id canonical named resolved inside pending cause ended
    rw [visit_of_inside named resolved inside] at ended
    have here := pending node (Node.mem_frontier_of_reference? named)
    exact .inr ⟨path, id, (Except.error.inj ended).symm, ⟨node, here.met, named⟩,
      here.led id inside id named⟩
  case opened =>
    intro stack path depth node id canonical named resolved outside below pending cause failed
    rw [visit_of_opened named resolved outside, bind_eq_error_iff] at failed
    rcases failed with failed | ⟨visits, _, impossible⟩
    · refine below ?_ cause failed
      intro reference inner
      have here := pending node (Node.mem_frontier_of_reference? named)
      exact here.opened named resolved inner
    · cases impossible
  case scalar =>
    intro stack path depth declaration facets pending cause failed
    rw [descend_scalar] at failed
    cases failed
  case array =>
    intro stack path depth declaration facets element hypothesis pending cause failed
    rw [Node.references_array] at pending
    rw [descend_array] at failed
    exact hypothesis pending cause failed
  case object =>
    intro stack path depth declaration facets children hypothesis pending cause failed
    rw [Node.references_object] at pending
    rw [descend_object] at failed
    refine hypothesis ?_ cause failed
    intro reference met
    exact pending reference ((Node.mem_flatMap_sorted reference children).mp met)
  case nil =>
    intro stack path depth pending cause failed
    rw [visitAll_nil] at failed
    cases failed
  case cons =>
    intro stack path depth child rest first others pending cause failed
    rw [List.flatMap_cons] at pending
    rw [visitAll_cons, bind_eq_error_iff] at failed
    rcases failed with failed | ⟨visits, _, failed⟩
    · exact first (fun reference met => pending reference (List.mem_append_left _ met))
        cause failed
    · rcases bind_eq_error_iff.mp failed with failed | ⟨later, _, impossible⟩
      · exact others (fun reference met => pending reference (List.mem_append_right _ met))
          cause failed
      · cases impossible

/-- No id that can be reached from the reference is in expansion or leads back to
itself. -/
def Clear
    (registry : Registry)
    (stack : List String)
    (reference : Node) : Prop :=
  ∀ id, reference.reference? = some id →
    ∀ reached, ReflTransGen registry.Leads id reached →
      reached ∉ stack ∧ ¬TransGen registry.Leads reached reached

/-- An id that is not in expansion is clear if the references below its entry are clear
of it. -/
theorem Clear.of_opened
    {registry : Registry}
    {node canonical : Node}
    {stack : List String}
    {path : FieldPath}
    {id : String}
    (named : node.reference? = some id)
    (resolved : registry.target path node id = .ok canonical)
    (outside : id ∉ stack)
    (below : ∀ reference ∈ canonical.references, registry.Clear (id :: stack) reference) :
    registry.Clear stack node := by
  have clearBelow : ∀ next, registry.Leads id next →
      ∀ reached, ReflTransGen registry.Leads next reached →
        reached ∉ id :: stack ∧ ¬TransGen registry.Leads reached reached := by
    intro next leads reached way
    obtain ⟨reference, member, target⟩ := leads.exists_reference resolved
    exact below reference member next target reached way
  intro other otherNamed reached way
  obtain rfl : id = other := Option.some.inj (named.symm.trans otherNamed)
  rcases way.cases_head with rfl | ⟨next, leads, rest⟩
  · refine ⟨outside, ?_⟩
    intro back
    obtain ⟨next, leads, rest⟩ := TransGen.head'_iff.mp back
    exact (clearBelow next leads id rest).1 List.mem_cons_self
  · obtain ⟨fresh, noWayBack⟩ := clearBelow next leads reached rest
    exact ⟨fun inside => fresh (List.mem_cons_of_mem id inside), noWayBack⟩

/-- A walk that comes through has met clear references only. -/
theorem clear_of_ok [Name.Lettering] (registry : Registry) :
    (∀ stack path depth node visits,
      registry.visit .expanded stack path depth node = .ok visits →
        ∀ reference ∈ node.frontier, registry.Clear stack reference) ∧
    ∀ stack path depth node visits,
      registry.descend .expanded stack path depth node = .ok visits →
        ∀ reference ∈ node.references, registry.Clear stack reference := by
  apply expanded_induct registry fun stack path depth children =>
    ∀ visits, registry.visitAll .expanded stack path depth children = .ok visits →
      ∀ reference ∈ children.flatMap Node.frontier, registry.Clear stack reference
  case plain =>
    intro stack path depth node plain below visits walked reference met
    rw [Node.frontier_of_reference?_none plain] at met
    rw [visit_of_plain plain, bind_eq_ok_iff] at walked
    obtain ⟨inner, walked, _⟩ := walked
    exact below inner walked reference met
  case unresolved =>
    intro stack path depth node id cause named failed visits walked
    rw [visit_of_unresolved named failed] at walked
    cases walked
  case inside =>
    intro stack path depth node id canonical named resolved inside visits walked
    rw [visit_of_inside named resolved inside] at walked
    cases walked
  case opened =>
    intro stack path depth node id canonical named resolved outside below visits walked
      reference met
    rw [visit_of_opened named resolved outside, bind_eq_ok_iff] at walked
    obtain ⟨inner, walked, _⟩ := walked
    rw [Node.frontier_of_reference?_some named, List.mem_singleton] at met
    subst met
    exact .of_opened named resolved outside (below inner walked)
  case scalar =>
    intro stack path depth declaration facets visits _ reference met
    simp at met
  case array =>
    intro stack path depth declaration facets element hypothesis visits walked reference met
    rw [descend_array] at walked
    rw [Node.references_array] at met
    exact hypothesis visits walked reference met
  case object =>
    intro stack path depth declaration facets children hypothesis visits walked reference met
    rw [descend_object] at walked
    rw [Node.references_object] at met
    exact hypothesis visits walked reference
      ((Node.mem_flatMap_sorted reference children).mpr met)
  case nil =>
    intro stack path depth visits _ reference met
    simp at met
  case cons =>
    intro stack path depth child rest first others visits walked reference met
    rw [visitAll_cons, bind_eq_ok_iff] at walked
    obtain ⟨inner, walkedFirst, walked⟩ := walked
    obtain ⟨later, walkedOthers, _⟩ := bind_eq_ok_iff.mp walked
    rw [List.flatMap_cons, List.mem_append] at met
    rcases met with met | met
    · exact first inner walkedFirst reference met
    · exact others later walkedOthers reference met

/-- A walk from a top node fails only for a reason. -/
theorem explained_of_collect_error
    [Name.Lettering]
    {registry : Registry}
    {root : Node}
    {cause : SchemaError}
    (failed : registry.collect .expanded root = .error cause) :
    registry.Explained root cause := by
  unfold collect at failed
  have start : ∀ reference ∈ root.frontier, registry.Pending root [] reference :=
    fun reference member => ⟨.start member, by simp⟩
  cases named : root.reference? with
  | none =>
      rw [Node.frontier_of_reference?_none named] at start
      rw [resolveAt_of_reference?_none registry _ named, ok_bind, named,
        bind_eq_error_iff] at failed
      rcases failed with failed | ⟨visits, _, impossible⟩
      · exact (explained_of_error registry root).2 _ _ _ _ start cause failed
      · cases impossible
  | some id =>
      have member := Node.mem_frontier_of_reference? named
      rw [bind_eq_error_iff] at failed
      rcases failed with failed | ⟨canonical, resolved, failed⟩
      · exact .inl ⟨_, root, .start member, failed⟩
      · rw [resolveAt, named] at resolved
        rw [named, bind_eq_error_iff] at failed
        rcases failed with failed | ⟨visits, _, impossible⟩
        · refine (explained_of_error registry root).2 _ _ _ _ ?_ cause failed
          intro reference inner
          exact (start root member).opened named resolved inner
        · cases impossible

/-- A walk that comes through from a top node has met clear references only. -/
theorem clear_of_collect_ok
    [Name.Lettering]
    {registry : Registry}
    {root : Node}
    {visits : List Visit}
    (walked : registry.collect .expanded root = .ok visits) :
    ∀ reference ∈ root.frontier, registry.Clear [] reference := by
  unfold collect at walked
  obtain ⟨canonical, resolved, walked⟩ := bind_eq_ok_iff.mp walked
  obtain ⟨below, walked, _⟩ := bind_eq_ok_iff.mp walked
  have clearBelow := (clear_of_ok registry).2 _ _ _ _ _ walked
  intro reference met
  cases named : root.reference? with
  | none =>
      rw [resolveAt_of_reference?_none registry _ named] at resolved
      obtain rfl : root = canonical := Except.ok.inj resolved
      rw [Node.frontier_of_reference?_none named] at met
      rw [named] at clearBelow
      exact clearBelow reference met
  | some id =>
      rw [resolveAt, named] at resolved
      rw [named] at clearBelow
      rw [Node.frontier_of_reference?_some named, List.mem_singleton] at met
      subst met
      exact .of_opened named resolved List.not_mem_nil clearBelow

/-- Where every reference resolves, a walk fails only with a reference inside itself. -/
theorem cycle_of_collect_error
    [Name.Lettering]
    {registry : Registry}
    {root : Node}
    {cause : SchemaError}
    (resolving : ∀ reference, registry.Meets root reference → registry.Resolves reference)
    (failed : registry.collect .expanded root = .error cause) :
    ∃ path id, cause = .referenceCycle path id ∧
      registry.Reaches root id ∧ TransGen registry.Leads id id := by
  rcases explained_of_collect_error failed with ⟨path, reference, met, unresolved⟩ | cycle
  · obtain ⟨canonical, resolved⟩ := resolving reference met
    rw [resolveAt_eq_ok_iff.mpr resolved] at unresolved
    cases unresolved
  · exact cycle

/-- A reference that is reported inside itself can be reached, and its id leads back to
itself. -/
theorem transGen_of_collect_cycle
    [Name.Lettering]
    {registry : Registry}
    {root : Node}
    {path : FieldPath}
    {id : String}
    (failed : registry.collect .expanded root = .error (.referenceCycle path id)) :
    registry.Reaches root id ∧ TransGen registry.Leads id id := by
  rcases explained_of_collect_error failed with ⟨place, reference, met, unresolved⟩ | cycle
  · exact absurd unresolved resolveAt_ne_cycle
  · obtain ⟨place, name, same, reached, back⟩ := cycle
    cases same
    exact ⟨reached, back⟩

/-- No id that is reached from clear references leads back to itself. -/
theorem not_transGen_of_clear
    {registry : Registry}
    {root : Node}
    (clear : ∀ reference ∈ root.frontier, registry.Clear [] reference)
    {id : String}
    (reached : registry.Reaches root id) :
    ¬TransGen registry.Leads id id := by
  obtain ⟨reference, met, named⟩ := reached
  obtain ⟨top, member, start, startNamed, way⟩ := met.exists_way named
  exact (clear top member start startNamed id way).2

/-- A walk does not come through where an id that it can reach leads back to itself. -/
theorem not_transGen_of_collect_ok
    [Name.Lettering]
    {registry : Registry}
    {root : Node}
    {visits : List Visit}
    (walked : registry.collect .expanded root = .ok visits)
    {id : String}
    (reached : registry.Reaches root id) :
    ¬TransGen registry.Leads id id :=
  not_transGen_of_clear (clear_of_collect_ok walked) reached

/-- An entry with a reference to another mentions it. -/
theorem Leads.edge
    {registry : Registry}
    {source target : String}
    (leads : registry.Leads source target) :
    registry.graph.Edge source target := by
  refine edge_of_mentioned leads.mem_ids (mem_mentioned_iff.mpr ?_)
  obtain ⟨entry, found, reference, member, named⟩ := leads
  exact ⟨entry, found, Node.mem_mentions_of_mem_references member named⟩

/-- An id that leads back to itself belongs to one of the cycles of the registry. -/
theorem exists_cycle_of_leads
    {registry : Registry}
    {id : String}
    (back : TransGen registry.Leads id id) :
    ∃ cycle ∈ registry.cycles, id ∈ cycle := by
  obtain ⟨next, leads, _⟩ := TransGen.head'_iff.mp back
  have edges : registry.Leads ≤ registry.graph.Edge := fun _ _ leads => leads.edge
  exact exists_cycle_of_transGen leads.mem_ids (TransGen.mono edges _ _ back)

/-- A walk that expands references ends after finitely many steps, and the ids in
expansion are distinct ids of the registry at every one of them. If all references that
it can meet resolve, it reports a reference inside itself exactly where some id that it
can reach leads back to itself, and comes through otherwise. A reported id always belongs
to one of the cycles of the registry. -/
theorem collect_expanded_detects_cycles
    [Name.Lettering]
    (registry : Registry)
    (root : Node) :
    (∃ steps,
      Walker.Ended (Walker.after registry root steps) (registry.collect .expanded root)) ∧
    (∀ steps walker,
      Walker.after registry root steps = .ok walker → Walker.Sound registry walker) ∧
    ((∀ reference, registry.Meets root reference → registry.Resolves reference) →
      ((∃ path id, registry.collect .expanded root = .error (.referenceCycle path id)) ↔
        ∃ id, registry.Reaches root id ∧ TransGen registry.Leads id id) ∧
      ((¬∃ id, registry.Reaches root id ∧ TransGen registry.Leads id id) →
        ∃ visits, registry.collect .expanded root = .ok visits)) ∧
    ∀ path id, registry.collect .expanded root = .error (.referenceCycle path id) →
      ∃ cycle ∈ registry.cycles, id ∈ cycle := by
  refine ⟨Walker.exists_ended_after registry root, ?_, ?_, ?_⟩
  · intro steps walker reached
    exact Walker.sound_of_after reached
  · intro resolving
    refine ⟨⟨?_, ?_⟩, ?_⟩
    · rintro ⟨path, id, failed⟩
      exact ⟨id, transGen_of_collect_cycle failed⟩
    · rintro ⟨id, reached, back⟩
      cases outcome : registry.collect .expanded root with
      | ok visits => exact absurd back (not_transGen_of_collect_ok outcome reached)
      | error cause =>
          obtain ⟨path, name, rfl, _⟩ := cycle_of_collect_error resolving outcome
          exact ⟨path, name, rfl⟩
    · intro free
      cases outcome : registry.collect .expanded root with
      | ok visits => exact ⟨visits, rfl⟩
      | error cause =>
          obtain ⟨path, name, _, found⟩ := cycle_of_collect_error resolving outcome
          exact absurd ⟨name, found⟩ free
  · intro path id failed
    exact exists_cycle_of_leads (transGen_of_collect_cycle failed).2

/-- An object that stands for an entry. -/
def pointer (name id : String) : Node :=
  .object { name := name, reference := some id } {} []

/-- Two objects that hold each other. -/
def mutualPair : Registry :=
  ⟨.ofList [
    ("left", .object { name := "left" } {} [pointer "other" "right"]),
    ("right", .object { name := "right" } {} [pointer "other" "left"])]⟩

/-- All that is met from a pointer to the pair is a pointer to one of the two. -/
theorem eq_pointer_of_meets_mutualPair
    {reference : Node}
    (met : mutualPair.Meets (pointer "top" "left") reference) :
    ∃ name, reference = pointer name "left" ∨ reference = pointer name "right" := by
  induction met with
  | start member =>
      exact ⟨"top", .inl (List.mem_singleton.mp member)⟩
  | through _ _ resolved member hypothesis =>
      obtain ⟨name, rfl | rfl⟩ := hypothesis
      · cases resolved
        exact ⟨"other", .inr (List.mem_singleton.mp member)⟩
      · cases resolved
        exact ⟨"other", .inl (List.mem_singleton.mp member)⟩

/-- The walk from a pointer to two objects that hold each other reports a reference inside
itself. -/
theorem collect_expanded_mutualPair :
    (∀ reference, mutualPair.Meets (pointer "top" "left") reference →
      mutualPair.Resolves reference) ∧
    ∃ path id,
      mutualPair.collect .expanded (pointer "top" "left") =
        .error (.referenceCycle path id) := by
  have resolving : ∀ reference, mutualPair.Meets (pointer "top" "left") reference →
      mutualPair.Resolves reference := by
    intro reference met
    obtain ⟨name, rfl | rfl⟩ := eq_pointer_of_meets_mutualPair met
    · exact ⟨_, rfl⟩
    · exact ⟨_, rfl⟩
  have leftLeads : mutualPair.Leads "left" "right" :=
    ⟨_, rfl, _, List.mem_singleton.mpr rfl, rfl⟩
  have rightLeads : mutualPair.Leads "right" "left" :=
    ⟨_, rfl, _, List.mem_singleton.mpr rfl, rfl⟩
  have reached : mutualPair.Reaches (pointer "top" "left") "left" :=
    ⟨_, .start (List.mem_singleton.mpr rfl), rfl⟩
  obtain ⟨_, _, detects, _⟩ :=
    collect_expanded_detects_cycles mutualPair (pointer "top" "left")
  refine ⟨resolving, (detects resolving).1.mpr ⟨"left", reached, ?_⟩⟩
  exact .tail (.single leftLeads) rightLeads

end Registry
end Schema
end SchemaCompiler
