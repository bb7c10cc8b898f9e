import SchemaCompiler.Proofs.Schema.KeyedAgreement
import SchemaCompiler.Proofs.Schema.Objects

/-!
# Where a merge stops

Two trees merge exactly if they have nodes of one kind wherever both have a node. Where they
do not, the merge stops at the first such place of the overlay, a node coming before those
inside it and children in their order. No other error is met on the way.
-/

namespace SchemaCompiler
namespace Schema

open SchemaCompiler.Outcome (bind_eq_error_iff exists_ok_iff_of_error_iff)

namespace FieldPath

/-- The path of the node that steps lead to. An element has the path of its array. -/
def follow (path : FieldPath) : List Step → FieldPath
  | [] => path
  | .child name :: rest => (path.child name).follow rest
  | .element :: rest => path.follow rest

end FieldPath

namespace Scalar

/-- Scalars merge exactly if they are of one kind. -/
theorem merge?_eq_none_iff {base overlay : Scalar} :
    base.merge? overlay = none ↔ base.kind ≠ overlay.kind := by
  cases base <;> cases overlay <;> simp [merge?, kind]

/-- No scalar is an array. -/
theorem kind_ne_array (facets : Scalar) : facets.kind ≠ .array := by
  cases facets <;> nofun

/-- No scalar is an object. -/
theorem kind_ne_object (facets : Scalar) : facets.kind ≠ .object := by
  cases facets <;> nofun

end Scalar

namespace Node

mutual

/-- The places of a tree, a node before those inside it and children in their order. -/
def places : Node → List (List Step)
  | .scalar .. => [[]]
  | .array _ _ element => [] :: (places element).map (.element :: ·)
  | .object _ _ children => [] :: placesAll children

/-- The places of the children of an object. -/
def placesAll : List Node → List (List Step)
  | [] => []
  | child :: rest => (places child).map (.child child.name :: ·) ++ placesAll rest

end

/-- The error of two nodes of different kinds. -/
def mismatch? (path : FieldPath) (base overlay : Node) : Option SchemaError :=
  if base.kind = overlay.kind then none
  else some (.variantMismatch path base.kind overlay.kind)

/-- The error of the nodes of two trees at one place, if both have one there. -/
def mismatchAt? (path : FieldPath) (base overlay : Node) (steps : List Step) :
    Option SchemaError := do
  let existing ← base.at? steps
  let stated ← overlay.at? steps
  mismatch? (path.follow steps) existing stated

/-- The error at the first place of an overlay where kinds differ. -/
def firstMismatch? (path : FieldPath) (base overlay : Node) : Option SchemaError :=
  overlay.places.findSome? (mismatchAt? path base overlay)

/-- Two trees are of one kind, and so are their elements or all children of one name. -/
inductive Mergeable : Node → Node → Prop
  | scalar {declaration stated : Declaration} {facets overlay : Scalar} :
      facets.kind = overlay.kind →
      Mergeable (.scalar declaration facets) (.scalar stated overlay)
  | array {declaration stated : Declaration} {facets overlay : ArrayFacets}
      {element statedElement : Node} :
      Mergeable element statedElement →
      Mergeable (.array declaration facets element) (.array stated overlay statedElement)
  | object {declaration stated : Declaration} {facets overlay : ObjectFacets}
      {children statedChildren : List Node} :
      (∀ name existing child,
        findChild? name children = some existing → findChild? name statedChildren = some child →
          Mergeable existing child) →
      Mergeable (.object declaration facets children) (.object stated overlay statedChildren)

/-- A property of all pairs of a base and a well-formed overlay by induction on the overlay:
pairs of different kinds have it, and pairs of one kind have it if all pairs with a node
inside the overlay have it. -/
@[elab_as_elim]
theorem inductOnPairs
    {motive : Node → Node → Prop}
    (differ : ∀ base overlay, base.kind ≠ overlay.kind → motive base overlay)
    (scalar : ∀ declaration facets stated overlay,
      (Node.scalar declaration facets).kind = (Node.scalar stated overlay).kind →
        motive (.scalar declaration facets) (.scalar stated overlay))
    (array : ∀ declaration facets element stated overlay statedElement,
      (∀ base, motive base statedElement) →
        motive (.array declaration facets element) (.array stated overlay statedElement))
    (object : ∀ declaration facets children stated overlay statedChildren,
      (statedChildren.map name).Nodup → overlay.groups.Nodup →
      (∀ group ∈ overlay.groups, ∀ member ∈ group, hasChild member statedChildren) →
      (∀ child ∈ statedChildren, ∀ base, motive base child) →
        motive (.object declaration facets children) (.object stated overlay statedChildren))
    {overlay : Node}
    (formed : overlay.WellFormed)
    (base : Node) :
    motive base overlay := by
  induction formed generalizing base with
  | scalar stated overlay =>
      cases base with
      | scalar declaration facets =>
          by_cases same : facets.kind = overlay.kind
          · exact scalar declaration facets stated overlay same
          · exact differ _ _ same
      | array => exact differ _ _ overlay.kind_ne_array.symm
      | object => exact differ _ _ overlay.kind_ne_object.symm
  | array _ hypothesis =>
      cases base with
      | scalar _ facets => exact differ _ _ facets.kind_ne_array
      | array => exact array _ _ _ _ _ _ hypothesis
      | object => exact differ _ _ (by simp [kind])
  | object distinct groups known _ hypothesis =>
      cases base with
      | scalar _ facets => exact differ _ _ facets.kind_ne_object
      | array => exact differ _ _ (by simp [kind])
      | object => exact object _ _ _ _ _ _ distinct groups known hypothesis

/-! ### The places of a tree -/

theorem mem_placesAll
    (steps : List Step)
    (children : List Node) :
    steps ∈ placesAll children ↔
      ∃ child ∈ children, ∃ rest ∈ child.places, .child child.name :: rest = steps := by
  induction children with
  | nil => simp [placesAll]
  | cons child rest hypothesis => simp [placesAll, hypothesis]

/-- The places of a well-formed tree are those where it has a node. -/
theorem mem_places_iff
    {node : Node}
    (formed : node.WellFormed)
    (steps : List Step) :
    steps ∈ node.places ↔ ∃ inner, node.at? steps = some inner := by
  induction formed generalizing steps with
  | scalar declaration facets =>
      match steps with
      | [] => simp [places]
      | .child _ :: _ | .element :: _ => simp [places, at?]
  | array _ hypothesis =>
      match steps with
      | [] => simp [places]
      | .child _ :: _ => simp [places, at?]
      | .element :: rest => simp [places, at?, hypothesis]
  | @object _ _ children distinct _ _ _ hypothesis =>
      match steps with
      | [] => simp [places]
      | .element :: _ => simp [places, at?, mem_placesAll]
      | .child key :: rest =>
          simp only [places, mem_placesAll, at?_child, Option.bind_eq_some_iff, List.mem_cons,
            reduceCtorEq, false_or, List.cons.injEq, Step.child.injEq]
          constructor
          · rintro ⟨child, member, below, inside, rfl, rfl⟩
            obtain ⟨inner, found⟩ := (hypothesis child member _).mp inside
            exact ⟨inner, child, findChild?_of_mem distinct member, found⟩
          · rintro ⟨inner, child, found, below⟩
            have member := mem_of_findChild? found
            exact ⟨child, member, rest, (hypothesis child member rest).mpr ⟨inner, below⟩,
              name_of_findChild? found, rfl⟩

/-- A mismatch at a place is one of the kinds of two nodes there. -/
theorem mismatchAt?_eq_some_iff
    {path : FieldPath}
    {base overlay : Node}
    {steps : List Step}
    {cause : SchemaError} :
    mismatchAt? path base overlay steps = some cause ↔
      ∃ existing stated, base.at? steps = some existing ∧ overlay.at? steps = some stated ∧
        existing.kind ≠ stated.kind ∧
        cause = .variantMismatch (path.follow steps) existing.kind stated.kind := by
  unfold mismatchAt? mismatch?
  cases base.at? steps with
  | none => simp
  | some existing =>
      cases overlay.at? steps with
      | none => simp
      | some stated => simp [eq_comm]

/-! ### The walk, node by node -/

theorem mismatch?_of_kind_eq
    {base overlay : Node}
    (same : base.kind = overlay.kind)
    (path : FieldPath) :
    mismatch? path base overlay = none :=
  if_pos same

theorem mismatch?_of_kind_ne
    {base overlay : Node}
    (different : base.kind ≠ overlay.kind)
    (path : FieldPath) :
    mismatch? path base overlay = some (.variantMismatch path base.kind overlay.kind) :=
  if_neg different

/-- The roots are compared first. -/
theorem findSome?_mismatchAt?_cons
    (path : FieldPath)
    (base overlay : Node)
    (inner : List (List Step)) :
    ([] :: inner).findSome? (mismatchAt? path base overlay) =
      (mismatch? path base overlay).or (inner.findSome? (mismatchAt? path base overlay)) := by
  have atRoot : mismatchAt? path base overlay [] = mismatch? path base overlay := by
    simp [mismatchAt?, FieldPath.follow]
  rw [List.findSome?_cons, atRoot]
  cases mismatch? path base overlay <;> rfl

/-- Roots of different kinds are the first mismatch. -/
theorem firstMismatch?_of_kind_ne
    {base overlay : Node}
    (different : base.kind ≠ overlay.kind)
    (path : FieldPath) :
    firstMismatch? path base overlay =
      some (.variantMismatch path base.kind overlay.kind) := by
  have startsAtRoot : ∃ inner, overlay.places = [] :: inner := by
    cases overlay <;> exact ⟨_, rfl⟩
  obtain ⟨inner, places⟩ := startsAtRoot
  rw [firstMismatch?, places, findSome?_mismatchAt?_cons, mismatch?_of_kind_ne different,
    Option.some_or]

/-- Scalars have no other place than their roots. -/
theorem firstMismatch?_scalar
    (path : FieldPath)
    (base : Node)
    (stated : Declaration)
    (overlay : Scalar) :
    firstMismatch? path base (.scalar stated overlay) =
      mismatch? path base (.scalar stated overlay) := by
  rw [firstMismatch?, places, findSome?_mismatchAt?_cons, List.findSome?_nil, Option.or_none]

/-- Arrays are compared by their elements. -/
theorem firstMismatch?_array
    (path : FieldPath)
    (declaration stated : Declaration)
    (facets overlay : ArrayFacets)
    (element statedElement : Node) :
    firstMismatch? path (.array declaration facets element) (.array stated overlay statedElement) =
      firstMismatch? path element statedElement := by
  have sameKind : (array declaration facets element).kind =
      (array stated overlay statedElement).kind := rfl
  rw [firstMismatch?, places, findSome?_mismatchAt?_cons, mismatch?_of_kind_eq sameKind,
    Option.none_or, List.findSome?_map]
  rfl

/-- The error of the children of an overlay: that of the first one with a mismatch to the
child of its name. -/
def firstMismatchAll? (path : FieldPath) (base overlay : List Node) : Option SchemaError :=
  overlay.findSome? fun child =>
    (findChild? child.name base).bind fun existing =>
      firstMismatch? (path.child child.name) existing child

theorem firstMismatchAll?_cons
    (path : FieldPath)
    (base : List Node)
    (child : Node)
    (rest : List Node) :
    firstMismatchAll? path base (child :: rest) =
      ((findChild? child.name base).bind fun existing =>
        firstMismatch? (path.child child.name) existing child).or
      (firstMismatchAll? path base rest) := by
  rw [firstMismatchAll?, List.findSome?_cons]
  cases (findChild? child.name base).bind fun existing =>
    firstMismatch? (path.child child.name) existing child <;> rfl

/-- The walk below the children of two objects. -/
theorem findSome?_mismatchAt?_placesAll
    {statedChildren rest : List Node}
    (found : ∀ child ∈ rest, findChild? child.name statedChildren = some child)
    (path : FieldPath)
    (declaration stated : Declaration)
    (facets overlay : ObjectFacets)
    (children : List Node) :
    (placesAll rest).findSome?
        (mismatchAt? path (.object declaration facets children)
          (.object stated overlay statedChildren)) =
      firstMismatchAll? path children rest := by
  induction rest with
  | nil => rfl
  | cons child rest hypothesis =>
      rw [List.forall_mem_cons] at found
      have below : ((mismatchAt? path (.object declaration facets children)
            (.object stated overlay statedChildren)) ∘ (.child child.name :: ·)) =
          fun steps => (findChild? child.name children).bind fun existing =>
            mismatchAt? (path.child child.name) existing child steps := by
        ext1 steps
        simp [mismatchAt?, found.1, FieldPath.follow, Option.bind_assoc]
      rw [placesAll, List.findSome?_append, List.findSome?_map, below, hypothesis found.2,
        firstMismatchAll?_cons]
      congr 1
      cases findChild? child.name children with
      | none => simp
      | some existing => rfl

/-- Objects are compared by the children that both have. -/
theorem firstMismatch?_object
    {statedChildren : List Node}
    (distinct : (statedChildren.map name).Nodup)
    (path : FieldPath)
    (declaration stated : Declaration)
    (facets overlay : ObjectFacets)
    (children : List Node) :
    firstMismatch? path (.object declaration facets children)
        (.object stated overlay statedChildren) =
      firstMismatchAll? path children statedChildren := by
  have sameKind : (object declaration facets children).kind =
      (object stated overlay statedChildren).kind := rfl
  rw [firstMismatch?, places, findSome?_mismatchAt?_cons, mismatch?_of_kind_eq sameKind,
    Option.none_or]
  apply findSome?_mismatchAt?_placesAll
  exact fun child member => findChild?_of_mem distinct member

/-! ### Merging -/

/-- Nodes of different kinds are not merged. -/
theorem mergeAt_of_kind_ne
    {base overlay : Node}
    (different : base.kind ≠ overlay.kind)
    (path : FieldPath) :
    base.mergeAt path overlay = .error (.variantMismatch path base.kind overlay.kind) := by
  cases overlay with
  | scalar stated overlay =>
      cases base with
      | array | object => rfl
      | scalar declaration facets =>
          have apart : facets.merge? overlay = none := Scalar.merge?_eq_none_iff.mpr different
          rw [mergeAt, apart]
          rfl
  | array stated overlay element =>
      cases base with
      | scalar | object => rfl
      | array => exact absurd rfl different
  | object stated overlay children =>
      cases base with
      | scalar | array => rfl
      | object => exact absurd rfl different

/-- The child of another name is found where it was when a child is replaced. -/
theorem findChild?_replaceFirst_of_ne
    {name other : String}
    {node : Node}
    (named : node.name = name)
    (different : other ≠ name)
    (children : List Node) :
    findChild? other (replaceFirst name node children) = findChild? other children := by
  induction children with
  | nil => rfl
  | cons first rest hypothesis =>
      rw [replaceFirst]
      split
      next same =>
        rw [findChild?_cons, findChild?_cons, named, same, if_neg different.symm,
          if_neg different.symm]
      next => rw [findChild?_cons, findChild?_cons, hypothesis]

/-- And so it is when a child is added. -/
theorem findChild?_concat_of_ne
    {other : String}
    {node : Node}
    (different : other ≠ node.name)
    (children : List Node) :
    findChild? other (children ++ [node]) = findChild? other children := by
  simp [findChild?, Ne.symm different]

/-- Only the children of the names of an overlay count. -/
theorem firstMismatchAll?_congr
    {base changed overlay : List Node}
    (same : ∀ child ∈ overlay, findChild? child.name changed = findChild? child.name base)
    (path : FieldPath) :
    firstMismatchAll? path changed overlay = firstMismatchAll? path base overlay := by
  induction overlay with
  | nil => rfl
  | cons child rest hypothesis =>
      rw [List.forall_mem_cons] at same
      rw [firstMismatchAll?_cons, firstMismatchAll?_cons, same.1, hypothesis same.2]

/-- Merging the children of an overlay stops at the first of them with a mismatch, if
merging each of them stops at its first mismatch. -/
theorem mergeChildren_eq_error_iff
    {overlay : List Node}
    (distinct : (overlay.map name).Nodup)
    (stops : ∀ child ∈ overlay, ∀ (path : FieldPath) (base : Node) (cause : SchemaError),
      base.mergeAt path child = .error cause ↔ firstMismatch? path base child = some cause)
    (path : FieldPath)
    (base : List Node)
    (cause : SchemaError) :
    mergeChildren path base overlay = .error cause ↔
      firstMismatchAll? path base overlay = some cause := by
  induction overlay generalizing base with
  | nil => simp [mergeChildren, firstMismatchAll?]
  | cons child rest hypothesis =>
      rw [List.map_cons, List.nodup_cons] at distinct
      rw [List.forall_mem_cons] at stops
      have others : ∀ other ∈ rest, other.name ≠ child.name := by
        intro other member same
        apply distinct.1
        rw [← same]
        exact List.mem_map_of_mem member
      rw [mergeChildren, firstMismatchAll?_cons]
      cases found : findChild? child.name base with
      | none =>
          have unchanged : firstMismatchAll? path (base ++ [child]) rest =
              firstMismatchAll? path base rest :=
            firstMismatchAll?_congr
              (fun other member => findChild?_concat_of_ne (others other member) base) path
          rw [Option.bind_none, Option.none_or, ← unchanged]
          exact hypothesis distinct.2 stops.2 _
      | some existing =>
          rw [Option.bind_some]
          have first := stops.1 (path.child child.name) existing
          cases merged : existing.mergeAt (path.child child.name) child with
          | error earlier =>
              simp [merged, (first earlier).mp merged]
          | ok node =>
              have agree := (exists_ok_iff_of_error_iff first).mp ⟨node, merged⟩
              have unchanged : firstMismatchAll? path (replaceFirst child.name node base) rest =
                  firstMismatchAll? path base rest := by
                have named := name_mergeAt_of_findChild? found merged
                exact firstMismatchAll?_congr (fun other member =>
                  findChild?_replaceFirst_of_ne named (others other member) base) path
              simp only [merged, Outcome.ok_bind]
              rw [agree, Option.none_or, ← unchanged]
              exact hypothesis distinct.2 stops.2 _

/-- Merging a well-formed overlay stops at its first mismatch, and at nothing else. -/
theorem mergeAt_eq_error_iff
    {overlay : Node}
    (formed : overlay.WellFormed)
    (base : Node) :
    ∀ (path : FieldPath) (cause : SchemaError),
      base.mergeAt path overlay = .error cause ↔
        firstMismatch? path base overlay = some cause := by
  refine inductOnPairs ?differ ?scalar ?array ?object formed base
  case differ =>
    intro base overlay different path cause
    rw [mergeAt_of_kind_ne different, firstMismatch?_of_kind_ne different, Except.error.injEq,
      Option.some.injEq]
  case scalar =>
    intro declaration facets stated overlay same path cause
    have merges : facets.merge? overlay ≠ none := fun apart =>
      Scalar.merge?_eq_none_iff.mp apart same
    obtain ⟨merged, both⟩ := Option.ne_none_iff_exists'.mp merges
    rw [firstMismatch?_scalar, mismatch?_of_kind_eq same, mergeAt, both]
    simp
  case array =>
    intro declaration facets element stated overlay statedElement hypothesis path cause
    rw [firstMismatch?_array, ← hypothesis, mergeAt, bind_eq_error_iff]
    simp [pure, Except.pure]
  case object =>
    intro declaration facets children stated overlay statedChildren distinct groups known
      hypothesis path cause
    rw [firstMismatch?_object distinct,
      ← mergeChildren_eq_error_iff distinct fun child member path base =>
        hypothesis child member base path,
      mergeAt, bind_eq_error_iff, or_iff_left]
    rintro ⟨result, merged, failed⟩
    -- All children of the overlay are in the result, and so its groups are known.
    have inResult : ∀ group ∈ overlay.groups, ∀ member ∈ group, hasChild member result :=
      fun group present member inside =>
        hasChild_of_mergeChildren merged (known group present member inside)
    let object : Object :=
      ⟨result, { facets with className := overlayNonempty facets.className overlay.className }⟩
    have grouped : object.addGroups path overlay.groups = .ok _ :=
      Object.addGroups_of_known groups inResult path
    simp [object, grouped, pure, Except.pure] at failed

/-- Mergeable trees are of one kind. -/
theorem Mergeable.kind_eq
    {base overlay : Node}
    (mergeable : Mergeable base overlay) :
    base.kind = overlay.kind := by
  cases mergeable with
  | scalar same => exact same
  | array | object => rfl

/-- Trees are mergeable exactly if there is no mismatch. -/
theorem firstMismatch?_eq_none_iff
    {overlay : Node}
    (formed : overlay.WellFormed)
    (base : Node) :
    ∀ path : FieldPath, firstMismatch? path base overlay = none ↔ Mergeable base overlay := by
  refine inductOnPairs ?differ ?scalar ?array ?object formed base
  case differ =>
    intro base overlay different path
    rw [firstMismatch?_of_kind_ne different]
    exact iff_of_false nofun fun mergeable => different mergeable.kind_eq
  case scalar =>
    intro declaration facets stated overlay same path
    rw [firstMismatch?_scalar, mismatch?_of_kind_eq same]
    exact iff_of_true rfl (.scalar same)
  case array =>
    intro declaration facets element stated overlay statedElement hypothesis path
    rw [firstMismatch?_array, hypothesis]
    exact ⟨.array, fun | .array inner => inner⟩
  case object =>
    intro declaration facets children stated overlay statedChildren distinct _ _ hypothesis path
    rw [firstMismatch?_object distinct, firstMismatchAll?, List.findSome?_eq_none_iff]
    constructor
    · intro agree
      apply Mergeable.object
      intro key existing child found stated
      have member := mem_of_findChild? stated
      rw [← name_of_findChild? stated] at found
      have inner := agree child member
      rw [found] at inner
      exact (hypothesis child member existing _).mp inner
    · rintro (_ | _ | inner) child member
      rw [Option.bind_eq_none_iff]
      intro existing found
      apply (hypothesis child member existing _).mpr
      exact inner child.name existing child found (findChild?_of_mem distinct member)

/-- Trees are mergeable exactly if they have nodes of one kind wherever both have a node. -/
theorem mergeable_iff_forall_at?
    {overlay : Node}
    (formed : overlay.WellFormed)
    (base : Node) :
    Mergeable base overlay ↔
      ∀ steps existing stated, base.at? steps = some existing → overlay.at? steps = some stated →
        existing.kind = stated.kind := by
  rw [← firstMismatch?_eq_none_iff formed base .root, firstMismatch?, List.findSome?_eq_none_iff]
  constructor
  · intro agree steps existing stated inBase inOverlay
    by_contra different
    have place := (mem_places_iff formed steps).mpr ⟨stated, inOverlay⟩
    have mismatch : mismatchAt? .root base overlay steps = some _ :=
      mismatchAt?_eq_some_iff.mpr ⟨existing, stated, inBase, inOverlay, different, rfl⟩
    rw [agree steps place] at mismatch
    cases mismatch
  · intro agree steps _
    apply Option.eq_none_iff_forall_ne_some.mpr
    intro cause mismatch
    obtain ⟨existing, stated, inBase, inOverlay, different, -⟩ :=
      mismatchAt?_eq_some_iff.mp mismatch
    exact different (agree steps existing stated inBase inOverlay)

/-- A merge succeeds exactly if the trees are mergeable, and fails with the first mismatch. -/
theorem merge_stops_at_first_mismatch
    (base : Node)
    {overlay : Node}
    (formed : overlay.WellFormed) :
    ((∃ result, base.merge overlay = .ok result) ↔ Mergeable base overlay) ∧
    (∀ cause, base.merge overlay = .error cause ↔
      firstMismatch? (.ofName base.name) base overlay = some cause) ∧
    (∀ cause, base.merge overlay = .error cause →
      ∃ steps existing stated,
        base.at? steps = some existing ∧ overlay.at? steps = some stated ∧
        existing.kind ≠ stated.kind ∧
        cause = .variantMismatch ((FieldPath.ofName base.name).follow steps) existing.kind
          stated.kind) ∧
    (base.keyed.mergeInto (.ofName base.name) overlay.keyed).error? =
      firstMismatch? (.ofName base.name) base overlay := by
  have stops := mergeAt_eq_error_iff formed base (.ofName base.name)
  refine ⟨?_, stops, ?_, ?_⟩
  · rw [← firstMismatch?_eq_none_iff formed base (.ofName base.name)]
    exact exists_ok_iff_of_error_iff stops
  · intro cause failed
    obtain ⟨steps, -, mismatch⟩ := List.exists_of_findSome?_eq_some ((stops cause).mp failed)
    obtain ⟨existing, stated, place⟩ := mismatchAt?_eq_some_iff.mp mismatch
    exact ⟨steps, existing, stated, place⟩
  · apply Option.ext
    intro cause
    rw [← Edited.toExcept_eq_error_iff, toExcept_mergeInto, ← stops]
    cases base.mergeAt (.ofName base.name) overlay <;> simp

/-- A socket with a port and hosts. -/
def socket : Node :=
  .object { name := "socket" } {}
    [.scalar { name := "port" } (.int {}),
      .array { name := "hosts" } {} (.scalar {} (.string {}))]

/-- An overlay that adds a label, and mistakes the hosts for numbers and the port for a text. -/
def socketOverlay : Node :=
  .object { name := "socket" } { groups := [["label", "port"]] }
    [.scalar { name := "label" } (.string {}),
      .array { name := "hosts" } {} (.scalar {} (.int {})),
      .scalar { name := "port" } (.string {})]

theorem wellFormed_socketOverlay : socketOverlay.WellFormed := by
  refine .object (by decide) (by decide) (by decide) ?_
  simp only [List.forall_mem_cons, List.not_mem_nil, false_imp_iff, implies_true, and_true]
  exact ⟨.scalar .., .array (.scalar ..), .scalar ..⟩

/-- The hosts come first in the overlay, and so their mismatch is reported. -/
theorem merge_stops_at_first_mismatch_socket :
    socketOverlay.WellFormed ∧ ¬Mergeable socket socketOverlay ∧
      socket.merge socketOverlay =
        .error (.variantMismatch ⟨["socket", "hosts"]⟩ .string .int) := by
  obtain ⟨succeeds, stops, -, -⟩ := merge_stops_at_first_mismatch socket wellFormed_socketOverlay
  have failed := (stops (.variantMismatch ⟨["socket", "hosts"]⟩ .string .int)).mpr rfl
  refine ⟨wellFormed_socketOverlay, ?_, failed⟩
  rw [← succeeds, failed]
  simp

end Node
end Schema
end SchemaCompiler
