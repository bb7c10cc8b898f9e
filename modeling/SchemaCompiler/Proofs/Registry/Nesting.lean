import SchemaCompiler.Proofs.Registry.ExpandedWalk
import SchemaCompiler.Proofs.Registry.References

/-!
# Nesting of walks

A walk lists its places flat, each with its depth. The places around one are found again from
the depths alone: a place is inside the nearest earlier one that is less deep. `fields` keeps
the places of named fields: neither the top, nor the elements of arrays, nor what is below an
array that is itself an element.
-/

namespace SchemaCompiler
namespace Schema

open Outcome

/-! ## Places around a place -/

namespace Visit

/-- The places of a pre-order list, each with the places around it, the nearest first; the
latest of those before the list are `around`. -/
def nest (around : List Visit) : List Visit → List (List Visit × Visit)
  | [] => []
  | visit :: rest =>
      let outer := around.dropWhile fun other => visit.depth ≤ other.depth
      (outer, visit) :: nest (visit :: outer) rest

/-- The place is that of an array. -/
def isArray (visit : Visit) : Bool := visit.canonical.element?.isSome

/-- One of the places is that of an array right inside another. -/
def haveNestedArrays : List Visit → Bool
  | inner :: outer :: rest => (inner.isArray && outer.isArray) || haveNestedArrays (outer :: rest)
  | _ => false

/-- The places around a place make it a field: there are some, the nearest is no array, so the
place is no element, and none is an array that is an element. -/
def areAroundField : List Visit → Bool
  | [] => false
  | parent :: around => !parent.isArray && !haveNestedArrays (parent :: around)

/-- The places of a pre-order list that are fields. -/
def fieldsWithin (around visits : List Visit) : List Visit :=
  ((nest around visits).filter fun entry => areAroundField entry.1).map Prod.snd

/-- The places of a walk that are fields. -/
def fields (visits : List Visit) : List Visit := fieldsWithin [] visits

/-- The places right inside the top, without what is inside them. -/
def topFields (visits : List Visit) : List Visit := visits.filter fun visit => visit.depth = 1

variable
  {depth : Nat}
  {around extra : List Visit}

/-- All places are less deep than some depth. -/
def Shallower (depth : Nat) (around : List Visit) : Prop := ∀ visit ∈ around, visit.depth < depth

/-- All places have some depth at least. -/
def Deeper (depth : Nat) (visits : List Visit) : Prop := ∀ visit ∈ visits, depth ≤ visit.depth

theorem Shallower.cons
    {visit : Visit}
    {below : Nat}
    (shallower : Shallower depth around)
    (less : depth ≤ below)
    (own : visit.depth < below) :
    Shallower below (visit :: around) :=
  List.forall_mem_cons.mpr ⟨own, fun other member =>
    Nat.lt_of_lt_of_le (shallower other member) less⟩

theorem deeper_nil (depth : Nat) : Deeper depth [] := List.forall_mem_nil _

/-- Places that are less deep are around all that follow. -/
theorem dropWhile_of_shallower
    (shallower : Shallower depth around) :
    (around.dropWhile fun other => depth ≤ other.depth) = around := by
  cases around with
  | nil => rfl
  | cons parent rest =>
      have less : ¬depth ≤ parent.depth := Nat.not_le.mpr (shallower parent List.mem_cons_self)
      rw [List.dropWhile_cons_of_neg (by simpa using less)]

/-- Places that are not less deep are not around what follows. -/
theorem dropWhile_append_of_deeper
    (deeper : Deeper depth extra)
    (shallower : Shallower depth around) :
    ((extra ++ around).dropWhile fun other => depth ≤ other.depth) = around := by
  rw [List.dropWhile_append_of_pos (by simpa [Deeper] using deeper)]
  exact dropWhile_of_shallower shallower

/-- A place leaves those around that are less deep, and some of the others. -/
theorem exists_dropWhile_append
    {visit : Visit}
    (deep : depth ≤ visit.depth)
    (deeper : Deeper depth extra)
    (shallower : Shallower depth around) :
    ∃ left, ((extra ++ around).dropWhile fun other => visit.depth ≤ other.depth) = left ++ around ∧
      Deeper depth left := by
  refine ⟨extra.dropWhile fun other => visit.depth ≤ other.depth, ?_, ?_⟩
  · rw [List.dropWhile_append]
    split
    next none =>
      have kept : Shallower visit.depth around :=
        fun other member => Nat.lt_of_lt_of_le (shallower other member) deep
      rw [List.isEmpty_iff.mp none, dropWhile_of_shallower kept]
      rfl
    next => rfl
  · exact fun other member => deeper other (List.dropWhile_subset _ member)

/-- What follows a part of a list is nested as if the part were not there, once it is no deeper
than the part. -/
theorem nest_append
    {first rest : List Visit}
    (shallower : Shallower depth around)
    (deeperExtra : Deeper depth extra)
    (deeper : Deeper depth first)
    (next : ∀ visit ∈ rest.head?, visit.depth = depth) :
    nest (extra ++ around) (first ++ rest) =
      nest (extra ++ around) first ++ nest around rest := by
  induction first generalizing extra with
  | nil =>
      cases rest with
      | nil => rfl
      | cons visit others =>
          have same : visit.depth = depth := next visit rfl
          rw [List.nil_append, nest, nest, nest, List.nil_append, same,
            dropWhile_append_of_deeper deeperExtra shallower, dropWhile_of_shallower shallower]
  | cons visit others hypothesis =>
      obtain ⟨deep, deeperOthers⟩ := List.forall_mem_cons.mp deeper
      obtain ⟨left, same, deeperLeft⟩ := exists_dropWhile_append deep deeperExtra shallower
      rw [List.cons_append, nest, nest, same, List.cons_append]
      rw [← List.cons_append, hypothesis (List.forall_mem_cons.mpr ⟨deep, deeperLeft⟩) deeperOthers]

/-- The fields of two parts of a list, the second no deeper than the first. -/
theorem fieldsWithin_append
    {first rest : List Visit}
    (shallower : Shallower depth around)
    (deeper : Deeper depth first)
    (next : ∀ visit ∈ rest.head?, visit.depth = depth) :
    fieldsWithin around (first ++ rest) =
      fieldsWithin around first ++ fieldsWithin around rest := by
  have nested : nest around (first ++ rest) = nest around first ++ nest around rest :=
    nest_append shallower (deeper_nil depth) deeper next
  rw [fieldsWithin, nested, List.filter_append, List.map_append]
  rfl

/-- The fields of a list whose first place is inside all of those around. -/
theorem fieldsWithin_cons
    {visit : Visit}
    {rest : List Visit}
    (shallower : Shallower visit.depth around) :
    fieldsWithin around (visit :: rest) =
      (if areAroundField around then [visit] else []) ++ fieldsWithin (visit :: around) rest := by
  rw [fieldsWithin, nest, dropWhile_of_shallower shallower, fieldsWithin, List.filter_cons]
  split <;> rfl

/-- An array inside another stays one, whatever is inside it. -/
theorem haveNestedArrays_append
    (nested : haveNestedArrays around = true) :
    haveNestedArrays (extra ++ around) = true := by
  induction extra with
  | nil => exact nested
  | cons visit rest hypothesis =>
      cases outer : rest ++ around with
      | nil =>
          rw [outer] at hypothesis
          cases hypothesis
      | cons parent others =>
          rw [outer] at hypothesis
          rw [List.cons_append, outer, haveNestedArrays, hypothesis, Bool.or_true]

/-- Nothing below an array that is an element is a field. -/
theorem fieldsWithin_eq_nil
    {visits : List Visit}
    (nested : haveNestedArrays around = true)
    (shallower : Shallower depth around)
    (deeperExtra : Deeper depth extra)
    (deeper : Deeper depth visits) :
    fieldsWithin (extra ++ around) visits = [] := by
  induction visits generalizing extra with
  | nil => rfl
  | cons visit rest hypothesis =>
      obtain ⟨deep, deeperRest⟩ := List.forall_mem_cons.mp deeper
      obtain ⟨left, same, deeperLeft⟩ := exists_dropWhile_append deep deeperExtra shallower
      have noField : areAroundField (left ++ around) = false := by
        have inside : haveNestedArrays (left ++ around) = true := haveNestedArrays_append nested
        cases outer : left ++ around with
        | nil => rfl
        | cons parent others =>
            rw [outer] at inside
            rw [areAroundField, inside, Bool.not_true, Bool.and_false]
      have rest := hypothesis (List.forall_mem_cons.mpr ⟨deep, deeperLeft⟩) deeperRest
      rw [fieldsWithin, nest, same, List.filter_cons, if_neg (by simp [noField])]
      exact rest

end Visit

/-! ## Places of a walk -/

namespace Registry

variable
  {registry : Registry}
  {stack : List String}
  {path : FieldPath}
  {depth : Nat}
  {visits : List Visit}

/-- A walk that comes through at a node lists the node and what is below its canonical node. -/
theorem exists_of_visit
    [Name.Lettering]
    {node : Node}
    (walked : registry.visit .expanded stack path depth node = .ok visits) :
    ∃ canonical inside below,
      registry.resolveAt path node = .ok canonical ∧
        registry.descend .expanded inside path depth canonical = .ok below ∧
        visits = ⟨path, node, canonical, depth, false⟩ :: below := by
  cases named : node.reference? with
  | none =>
      rw [visit_of_plain named, bind_eq_ok_iff] at walked
      obtain ⟨below, walked, made⟩ := walked
      cases made
      exact ⟨node, stack, below, resolveAt_of_reference?_none registry path named, walked, rfl⟩
  | some id =>
      cases resolved : registry.target path node id with
      | error cause =>
          rw [visit_of_unresolved named resolved] at walked
          cases walked
      | ok canonical =>
          by_cases inside : id ∈ stack
          · rw [visit_of_inside named resolved inside] at walked
            cases walked
          · rw [visit_of_opened named resolved inside, bind_eq_ok_iff] at walked
            obtain ⟨below, walked, made⟩ := walked
            cases made
            refine ⟨canonical, id :: stack, below, ?_, walked, rfl⟩
            rw [resolveAt, named]
            exact resolved

/-- The first child and the others are listed one after the other. -/
theorem exists_of_visitAll_cons
    [Name.Lettering]
    {child : Node}
    {rest : List Node}
    (walked : registry.visitAll .expanded stack path depth (child :: rest) = .ok visits) :
    ∃ first others,
      registry.visit .expanded stack (path.child child.name) depth child = .ok first ∧
        registry.visitAll .expanded stack path depth rest = .ok others ∧
        visits = first ++ others := by
  rw [visitAll_cons, bind_eq_ok_iff] at walked
  obtain ⟨first, walkedFirst, walked⟩ := walked
  obtain ⟨others, walkedRest, made⟩ := bind_eq_ok_iff.mp walked
  cases made
  exact ⟨first, others, walkedFirst, walkedRest, rfl⟩

/-- The first place that is listed of children is one of theirs. -/
theorem depth_of_head?_visitAll
    [Name.Lettering]
    {children : List Node}
    (walked : registry.visitAll .expanded stack path depth children = .ok visits) :
    ∀ visit ∈ visits.head?, visit.depth = depth := by
  cases children with
  | nil =>
      rw [visitAll_nil] at walked
      cases walked
      exact fun _ none => by cases none
  | cons child rest =>
      obtain ⟨first, others, walkedFirst, -, rfl⟩ := exists_of_visitAll_cons walked
      obtain ⟨canonical, inside, below, -, -, rfl⟩ := exists_of_visit walkedFirst
      intro visit member
      cases member
      rfl

/-- Everything below a node is deeper than the node. -/
theorem deeper_of_walk [Name.Lettering] (registry : Registry) :
    (∀ stack path depth node visits,
      registry.visit .expanded stack path depth node = .ok visits → Visit.Deeper depth visits) ∧
    ∀ stack path depth node visits,
      registry.descend .expanded stack path depth node = .ok visits →
        Visit.Deeper (depth + 1) visits := by
  have ofBelow : ∀ (path : FieldPath) (depth : Nat) (node canonical : Node) (below : List Visit),
      Visit.Deeper (depth + 1) below →
      Visit.Deeper depth (⟨path, node, canonical, depth, false⟩ :: below) := by
    intro path depth node canonical below deeper
    exact List.forall_mem_cons.mpr ⟨Nat.le_refl depth, fun visit member =>
      Nat.le_of_succ_le (deeper visit member)⟩
  apply expanded_induct registry fun stack path depth children =>
    ∀ visits, registry.visitAll .expanded stack path depth children = .ok visits →
      Visit.Deeper depth visits
  case plain =>
    intro stack path depth node plain below visits walked
    rw [visit_of_plain plain, bind_eq_ok_iff] at walked
    obtain ⟨inner, walked, made⟩ := walked
    cases made
    exact ofBelow path depth node node inner (below inner walked)
  case unresolved =>
    intro stack path depth node id cause named failed visits walked
    rw [visit_of_unresolved named failed] at walked
    cases walked
  case inside =>
    intro stack path depth node id canonical named resolved inside visits walked
    rw [visit_of_inside named resolved inside] at walked
    cases walked
  case opened =>
    intro stack path depth node id canonical named resolved outside below visits walked
    rw [visit_of_opened named resolved outside, bind_eq_ok_iff] at walked
    obtain ⟨inner, walked, made⟩ := walked
    cases made
    exact ofBelow path depth node canonical inner (below inner walked)
  case scalar =>
    intro stack path depth declaration facets visits walked
    rw [descend_scalar] at walked
    cases walked
    exact Visit.deeper_nil _
  case array =>
    intro stack path depth declaration facets element hypothesis visits walked
    rw [descend_array] at walked
    exact hypothesis visits walked
  case object =>
    intro stack path depth declaration facets children hypothesis visits walked
    rw [descend_object] at walked
    exact hypothesis visits walked
  case nil =>
    intro stack path depth visits walked
    rw [visitAll_nil] at walked
    cases walked
    exact Visit.deeper_nil _
  case cons =>
    intro stack path depth child rest first others visits walked
    obtain ⟨inner, later, walkedFirst, walkedRest, rfl⟩ := exists_of_visitAll_cons walked
    exact List.forall_mem_append.mpr ⟨first inner walkedFirst, others later walkedRest⟩

/-- The places of children that are as deep as the children are theirs. -/
theorem filter_depth_of_visitAll
    [Name.Lettering]
    {children : List Node}
    (walked : registry.visitAll .expanded stack path depth children = .ok visits) :
    (visits.filter fun visit => visit.depth = depth).map Visit.node = children := by
  induction children generalizing visits with
  | nil =>
      rw [visitAll_nil] at walked
      cases walked
      rfl
  | cons child rest hypothesis =>
      obtain ⟨first, others, walkedFirst, walkedRest, rfl⟩ := exists_of_visitAll_cons walked
      obtain ⟨canonical, inside, below, -, descended, rfl⟩ := exists_of_visit walkedFirst
      have deeper := (deeper_of_walk registry).2 _ _ _ _ _ descended
      have noneBelow : (below.filter fun visit => visit.depth = depth) = [] := by
        rw [List.filter_eq_nil_iff]
        intro visit member
        simpa using Nat.ne_of_gt (deeper visit member)
      rw [List.cons_append, List.filter_cons, if_pos (by simp), List.filter_append, noneBelow,
        List.nil_append, List.map_cons, hypothesis walkedRest]

/-- The fields that a walk from a tree lists right below the top are those of the canonical
node. -/
theorem topFields_of_collect
    [Name.Lettering]
    {root : Node}
    {declaration : Declaration}
    {facets : ObjectFacets}
    {children : List Node}
    (resolved : registry.resolve root = .ok (.object declaration facets children))
    (walked : registry.collect .expanded root = .ok visits) :
    (Visit.topFields visits).map Visit.node = Node.sorted children := by
  rw [collect, resolveAt_eq_ok_iff.mpr resolved, ok_bind, descend_object, bind_eq_ok_iff] at walked
  obtain ⟨below, walked, made⟩ := walked
  cases made
  rw [Visit.topFields, List.filter_cons_of_neg (by simp)]
  exact filter_depth_of_visitAll walked

end Registry
end Schema
end SchemaCompiler
