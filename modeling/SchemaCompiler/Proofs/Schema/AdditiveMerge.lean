import SchemaCompiler.Proofs.Schema.Merge
import SchemaCompiler.Proofs.Schema.ValueEdits

/-!
# A merge only adds

At every place of the base a merge leaves a node of the same kind. `Extends` states
what that node has: nothing that the base sets is lost, nothing that the overlay
leaves unset has changed, and children and groups of the overlay come after those of
the base. Where the overlay has no node, or one that states nothing, the whole
subtree is as it was.
-/

namespace SchemaCompiler
namespace Schema

/-- A part of a base that stays set if it is set, and stays as it is unless the
overlay sets it. -/
structure Kept (isSet : α → Prop) (base overlay result : α) : Prop where
  set : isSet base → isSet result
  unset : ¬isSet overlay → result = base

theorem kept_overlayText (base overlay : String) :
    Kept (· ≠ "") base overlay (overlayText base overlay) where
  set := by
    intro given
    by_cases empty : overlay = "" <;> simp [overlayText, empty, given]
  unset := by
    intro empty
    simp_all [overlayText]

theorem kept_overlayOption (base overlay : Option α) :
    Kept (·.isSome) base overlay (overlayOption base overlay) where
  set := by
    intro given
    cases overlay <;> simp [overlayOption, given]
  unset := by
    intro missing
    simp_all [overlayOption]

theorem kept_overlayNonempty (base overlay : Option String) :
    Kept (·.isSome) base (overlay.filter (· ≠ "")) (overlayNonempty base overlay) :=
  kept_overlayOption base (overlay.filter (· ≠ ""))

/-- A text that is missing or empty changes nothing. -/
theorem overlayNonempty_of_filter
    {overlay : Option String}
    (empty : overlay.filter (· ≠ "") = none)
    (base : Option String) :
    overlayNonempty base overlay = base := by
  rw [overlayNonempty, empty]
  rfl

theorem kept_or (base overlay : Bool) :
    Kept (· = true) base overlay (base || overlay) where
  set := by
    intro given
    simp [given]
  unset := by
    intro missing
    simp_all

theorem kept_overlayValues (base overlay : List α) :
    Kept (· ≠ []) base overlay (overlayValues base overlay) where
  set := by
    intro given
    cases overlay <;> simp [overlayValues, given]
  unset := by
    intro missing
    simp_all [overlayValues]

/-- What a merge keeps of a declaration. -/
structure Declaration.Extends (base overlay result : Declaration) : Prop where
  name : Kept (· ≠ "") base.name overlay.name result.name
  reference : Kept (·.isSome) base.reference (overlay.reference.filter (· ≠ "")) result.reference
  moduleName :
    Kept (·.isSome) base.moduleName (overlay.moduleName.filter (· ≠ "")) result.moduleName
  location : Kept (·.isSome) base.location overlay.location result.location
  description :
    Kept (·.isSome) base.description (overlay.description.filter (· ≠ "")) result.description
  required : Kept (· = true) base.required overlay.required result.required
  readOnly : Kept (· = true) base.readOnly overlay.readOnly result.readOnly
  replaceOnChange :
    Kept (· = true) base.replaceOnChange overlay.replaceOnChange result.replaceOnChange

theorem Declaration.extends_merge (base overlay : Declaration) :
    base.Extends overlay (base.merge overlay) where
  name := kept_overlayText _ _
  reference := kept_overlayNonempty _ _
  moduleName := kept_overlayNonempty _ _
  location := kept_overlayOption _ _
  description := kept_overlayNonempty _ _
  required := kept_or _ _
  readOnly := kept_or _ _
  replaceOnChange := kept_or _ _

/-- What a merge keeps of the facets of a truth value. -/
structure BoolFacets.Extends (base overlay result : BoolFacets) : Prop where
  defaultValue : Kept (·.isSome) base.defaultValue overlay.defaultValue result.defaultValue
  untyped : Kept (· = true) base.untyped overlay.untyped result.untyped

/-- What a merge keeps of the facets of a number. -/
structure NumberFacets.Extends (base overlay result : NumberFacets α) : Prop where
  defaultValue : Kept (·.isSome) base.defaultValue overlay.defaultValue result.defaultValue
  min : Kept (·.isSome) base.min overlay.min result.min
  max : Kept (·.isSome) base.max overlay.max result.max
  values : Kept (· ≠ []) base.values overlay.values result.values

theorem NumberFacets.extends_merge (base overlay : NumberFacets α) :
    base.Extends overlay (base.merge overlay) where
  defaultValue := kept_overlayOption _ _
  min := kept_overlayOption _ _
  max := kept_overlayOption _ _
  values := kept_overlayValues _ _

/-- What a merge keeps of the facets of a string. Its values can only be lost to a
patch that removes every one of them. -/
structure StringFacets.Extends (base overlay result : StringFacets) : Prop where
  defaultValue : Kept (·.isSome) base.defaultValue overlay.defaultValue result.defaultValue
  sensitive : Kept (· = true) base.sensitive overlay.sensitive result.sensitive
  minLength : Kept (·.isSome) base.minLength overlay.minLength result.minLength
  maxLength : Kept (·.isSome) base.maxLength overlay.maxLength result.maxLength
  regex : Kept (·.isSome) base.regex (overlay.regex.filter (· ≠ "")) result.regex
  hashing : Kept (¬·.isPlaintext) base.hashing overlay.hashing result.hashing
  valuesPatch : result.valuesPatch = base.valuesPatch
  someValues : base.values ≠ [] → result.values = [] →
    ∃ patch ∈ overlay.valuesPatch, ∀ value ∈ base.values, value ∈ patch.remove
  sameValues : overlay.values = [] → (∀ patch ∈ overlay.valuesPatch, patch.isEmpty) →
    result.values = base.values

theorem StringFacets.extends_merge (base overlay : StringFacets) :
    base.Extends overlay (base.merge overlay) where
  defaultValue := kept_overlayOption _ _
  sensitive := kept_or _ _
  minLength := kept_overlayOption _ _
  maxLength := kept_overlayOption _ _
  regex := kept_overlayNonempty _ _
  hashing := {
    set := by
      intro given
      by_cases plain : overlay.hashing.isPlaintext <;> simp [merge, plain, given]
    unset := by
      intro plain
      simp_all [merge] }
  valuesPatch := rfl
  someValues := by
    intro given lost
    change mergeValues base overlay = [] at lost
    unfold mergeValues at lost
    split at lost
    next stated => simp [lost] at stated
    next =>
      split at lost
      next patch patched =>
        refine ⟨patch, patched, fun value member => ?_⟩
        by_contra kept
        have present := ValuesPatch.mem_apply_iff.mpr (.inr ⟨member, kept⟩)
        simp [lost] at present
      next => exact absurd lost given
  sameValues := by
    intro unstated unpatched
    change mergeValues base overlay = base.values
    unfold mergeValues
    rw [if_neg (by simp [unstated])]
    split
    next patch patched => exact ValuesPatch.apply_of_isEmpty (unpatched patch patched)
    next => rfl

/-- What a merge keeps of the facets of a scalar. -/
def Scalar.Extends : Scalar → Scalar → Scalar → Prop
  | .bool base, .bool overlay, .bool result => base.Extends overlay result
  | .int base, .int overlay, .int result => base.Extends overlay result
  | .float base, .float overlay, .float result => base.Extends overlay result
  | .string base, .string overlay, .string result => base.Extends overlay result
  | _, _, _ => False

theorem Scalar.extends_merge?
    {base overlay result : Scalar}
    (merged : base.merge? overlay = some result) :
    base.Extends overlay result := by
  cases base <;> cases overlay <;> simp only [merge?, Option.some.injEq, reduceCtorEq] at merged
  case bool.bool base overlay =>
      subst merged
      exact ⟨kept_overlayOption _ _, kept_or _ _⟩
  case int.int base overlay =>
      subst merged
      exact NumberFacets.extends_merge base overlay
  case float.float base overlay =>
      subst merged
      exact NumberFacets.extends_merge base overlay
  case string.string base overlay =>
      subst merged
      exact StringFacets.extends_merge base overlay

/-- What a merge keeps of the facets of an array. -/
structure ArrayFacets.Extends (base overlay result : ArrayFacets) : Prop where
  minItems : Kept (·.isSome) base.minItems overlay.minItems result.minItems
  maxItems : Kept (·.isSome) base.maxItems overlay.maxItems result.maxItems
  unordered : Kept (· = true) base.unordered overlay.unordered result.unordered

theorem ArrayFacets.extends_merge (base overlay : ArrayFacets) :
    base.Extends overlay (base.merge overlay) where
  minItems := kept_overlayOption _ _
  maxItems := kept_overlayOption _ _
  unordered := kept_or _ _

/-- What a merge keeps of the facets of an object: its groups come first, followed by
the new groups of the overlay. -/
structure ObjectFacets.Extends (base overlay result : ObjectFacets) : Prop where
  className : Kept (·.isSome) base.className (overlay.className.filter (· ≠ "")) result.className
  groups : result.groups = base.groups ++ overlay.groups.filter (· ∉ base.groups)

theorem ObjectFacets.extends_merge (base overlay : ObjectFacets) :
    base.Extends overlay (base.merge overlay) where
  className := kept_overlayNonempty _ _
  groups := rfl

namespace Node

/-- The children of a base come first, in their order, followed by the new children
of the overlay. -/
def ChildrenExtend (base overlay result : List Node) : Prop :=
  ∃ kept : List Node, kept.map name = base.map name ∧
    result = kept ++ overlay.filter fun child => !hasChild child.name base

/-- What a merge keeps of a node apart from the nodes inside it. -/
def Extends : Node → Node → Node → Prop
  | .scalar declaration facets, .scalar statedDeclaration stated,
      .scalar mergedDeclaration merged =>
        declaration.Extends statedDeclaration mergedDeclaration ∧ facets.Extends stated merged
  | .array declaration facets _, .array statedDeclaration stated _,
      .array mergedDeclaration merged _ =>
        declaration.Extends statedDeclaration mergedDeclaration ∧ facets.Extends stated merged
  | .object declaration facets children, .object statedDeclaration stated statedChildren,
      .object mergedDeclaration merged mergedChildren =>
        declaration.Extends statedDeclaration mergedDeclaration ∧
          facets.Extends stated merged ∧
          ChildrenExtend children statedChildren mergedChildren
  | _, _, _ => False

/-- A merge that succeeds keeps the base. -/
theorem extends_mergeAt
    {path : FieldPath}
    {base overlay result : Node}
    (baseFormed : base.WellFormed)
    (overlayFormed : overlay.WellFormed)
    (merged : mergeAt path base overlay = .ok result) :
    base.Extends overlay result := by
  cases overlayFormed with
  | scalar =>
      obtain ⟨declaration, facets, mergedFacets, rfl, both, rfl⟩ := mergeAt_scalar_spec merged
      exact ⟨Declaration.extends_merge _ _, Scalar.extends_merge? both⟩
  | array =>
      obtain ⟨declaration, facets, element, mergedElement, rfl, -, rfl⟩ :=
        mergeAt_array_spec merged
      exact ⟨Declaration.extends_merge _ _, ArrayFacets.extends_merge _ _⟩
  | object overlayDistinct groupsDistinct =>
      obtain ⟨declaration, facets, children, mergedChildren, rfl, inner, -, rfl⟩ :=
        mergeAt_object_spec groupsDistinct merged
      cases baseFormed with
      | object baseDistinct =>
          obtain ⟨kept, pairs, rfl⟩ := mergeChildren_spec overlayDistinct baseDistinct inner
          exact ⟨Declaration.extends_merge _ _, ObjectFacets.extends_merge _ _,
            kept, map_name_eq_of_mergedChild pairs, rfl⟩

/-- A node that extends another has its kind. -/
theorem Extends.kind_eq
    {base overlay result : Node}
    (extended : base.Extends overlay result) :
    result.kind = base.kind := by
  cases base <;> cases overlay <;> cases result <;> simp only [Extends] at extended
  case scalar.scalar.scalar facets _ stated _ merged =>
      cases facets <;> cases stated <;> cases merged <;>
        first | rfl | exact extended.2.elim
  case array.array.array => rfl
  case object.object.object => rfl

end Node

/-- The declaration states nothing that `base` does not. -/
structure Declaration.NeutralFor (overlay base : Declaration) : Prop where
  name : overlay.name = "" ∨ overlay.name = base.name
  reference : overlay.reference.filter (· ≠ "") = none
  moduleName : overlay.moduleName.filter (· ≠ "") = none
  location : overlay.location = none
  description : overlay.description.filter (· ≠ "") = none
  required : overlay.required = false
  readOnly : overlay.readOnly = false
  replaceOnChange : overlay.replaceOnChange = false

/-- A declaration that states nothing leaves the base as it is. -/
theorem Declaration.merge_of_neutralFor
    {base overlay : Declaration}
    (neutral : overlay.NeutralFor base) :
    base.merge overlay = base := by
  have sameName : overlayText base.name overlay.name = base.name := by
    rcases neutral.name with empty | same
    · simp [overlayText, empty]
    · simp [overlayText, same]
  simp [merge, sameName, overlayOption, overlayNonempty_of_filter neutral.reference,
    overlayNonempty_of_filter neutral.moduleName, neutral.location,
    overlayNonempty_of_filter neutral.description, neutral.required, neutral.readOnly,
    neutral.replaceOnChange]

/-- The facets of a number state nothing. -/
structure NumberFacets.Neutral (overlay : NumberFacets α) : Prop where
  defaultValue : overlay.defaultValue = none
  min : overlay.min = none
  max : overlay.max = none
  values : overlay.values = []

theorem NumberFacets.merge_of_neutral
    {base overlay : NumberFacets α}
    (neutral : overlay.Neutral) :
    base.merge overlay = base := by
  simp [merge, overlayOption, overlayValues, neutral.defaultValue, neutral.min, neutral.max,
    neutral.values]

/-- The facets of a string state nothing. -/
structure StringFacets.Neutral (overlay : StringFacets) : Prop where
  defaultValue : overlay.defaultValue = none
  sensitive : overlay.sensitive = false
  minLength : overlay.minLength = none
  maxLength : overlay.maxLength = none
  values : overlay.values = []
  regex : overlay.regex.filter (· ≠ "") = none
  hashing : overlay.hashing = .plaintext
  valuesPatch : ∀ patch ∈ overlay.valuesPatch, patch.isEmpty

theorem StringFacets.merge_of_neutral
    {base overlay : StringFacets}
    (neutral : overlay.Neutral) :
    base.merge overlay = base := by
  have sameValues : mergeValues base overlay = base.values :=
    (extends_merge base overlay).sameValues neutral.values neutral.valuesPatch
  simp [merge, overlayOption, sameValues, neutral.defaultValue, neutral.sensitive,
    neutral.minLength, neutral.maxLength, overlayNonempty_of_filter neutral.regex,
    neutral.hashing, HashProfile.isPlaintext]

/-- The facets of a scalar state nothing. -/
def Scalar.Neutral : Scalar → Prop
  | .bool overlay => overlay.defaultValue = none ∧ overlay.untyped = false
  | .int overlay => overlay.Neutral
  | .float overlay => overlay.Neutral
  | .string overlay => overlay.Neutral

theorem Scalar.merge?_of_neutral
    {base overlay result : Scalar}
    (merged : base.merge? overlay = some result)
    (neutral : overlay.Neutral) :
    result = base := by
  cases base <;> cases overlay <;> simp only [merge?, Option.some.injEq, reduceCtorEq] at merged
  case bool.bool base overlay =>
      rw [← merged, BoolFacets.merge, neutral.1, neutral.2, Bool.or_false]
      rfl
  case int.int => rw [← merged, NumberFacets.merge_of_neutral neutral]
  case float.float => rw [← merged, NumberFacets.merge_of_neutral neutral]
  case string.string => rw [← merged, StringFacets.merge_of_neutral neutral]

/-- The facets of an array state nothing. -/
structure ArrayFacets.Neutral (overlay : ArrayFacets) : Prop where
  minItems : overlay.minItems = none
  maxItems : overlay.maxItems = none
  unordered : overlay.unordered = false

theorem ArrayFacets.merge_of_neutral
    {base overlay : ArrayFacets}
    (neutral : overlay.Neutral) :
    base.merge overlay = base := by
  simp [merge, overlayOption, neutral.minItems, neutral.maxItems, neutral.unordered]

/-- The facets of an object state nothing. -/
structure ObjectFacets.Neutral (overlay : ObjectFacets) : Prop where
  groups : overlay.groups = []
  className : overlay.className.filter (· ≠ "") = none

theorem ObjectFacets.merge_of_neutral
    {base overlay : ObjectFacets}
    (neutral : overlay.Neutral) :
    base.merge overlay = base := by
  simp [merge, overlayNonempty_of_filter neutral.className, neutral.groups]

namespace Node

/-- The overlay states nothing that a base does not: neither in itself nor in the
nodes inside it, all of which the base has. -/
inductive NeutralFor : Node → Node → Prop
  | scalar {declaration base : Declaration} {overlay facets : Scalar} :
      declaration.NeutralFor base → overlay.Neutral →
      NeutralFor (.scalar declaration overlay) (.scalar base facets)
  | array {declaration base : Declaration} {overlay facets : ArrayFacets}
      {overlayElement element : Node} :
      declaration.NeutralFor base → overlay.Neutral → NeutralFor overlayElement element →
      NeutralFor (.array declaration overlay overlayElement) (.array base facets element)
  | object {declaration base : Declaration} {overlay facets : ObjectFacets}
      {overlayChildren children : List Node} :
      declaration.NeutralFor base → overlay.Neutral →
      (∀ child ∈ overlayChildren, hasChild child.name children) →
      (∀ child ∈ overlayChildren, ∀ existing, findChild? child.name children = some existing →
        NeutralFor child existing) →
      NeutralFor (.object declaration overlay overlayChildren) (.object base facets children)

/-- A well-formed overlay that states nothing leaves the whole tree as it is. -/
theorem mergeAt_of_neutralFor
    {base overlay : Node}
    (neutral : overlay.NeutralFor base)
    (baseFormed : base.WellFormed)
    (overlayFormed : overlay.WellFormed)
    {path : FieldPath}
    {result : Node}
    (merged : mergeAt path base overlay = .ok result) :
    result = base := by
  induction neutral generalizing path result with
  | scalar declared stated =>
      obtain ⟨_, _, _, ⟨⟩, both, rfl⟩ := mergeAt_scalar_spec merged
      rw [Declaration.merge_of_neutralFor declared, Scalar.merge?_of_neutral both stated]
  | array declared stated inner hypothesis =>
      obtain ⟨_, _, _, element, ⟨⟩, elements, rfl⟩ := mergeAt_array_spec merged
      cases baseFormed with
      | array elementFormed =>
          cases overlayFormed with
          | array overlayElementFormed =>
              rw [Declaration.merge_of_neutralFor declared, ArrayFacets.merge_of_neutral stated,
                hypothesis elementFormed overlayElementFormed elements]
  | @object _ _ _ _ overlayChildren children declared stated known inner hypothesis =>
      cases baseFormed with
      | object baseDistinct _ _ childrenFormed =>
          cases overlayFormed with
          | object overlayDistinct groupsDistinct _ overlayChildrenFormed =>
              obtain ⟨_, _, _, mergedChildren, ⟨⟩, merges, -, rfl⟩ :=
                mergeAt_object_spec groupsDistinct merged
              obtain ⟨kept, pairs, rfl⟩ := mergeChildren_spec overlayDistinct baseDistinct merges
              have noneAdded :
                  (overlayChildren.filter fun child => !hasChild child.name children) = [] := by
                simpa using known
              have same : ∀ child merged, child ∈ children ∧
                  MergedChild path overlayChildren child merged → child = merged := by
                rintro child merged ⟨member, pair⟩
                unfold MergedChild at pair
                split at pair
                next => exact pair.symm
                next stated found =>
                  have met := mem_of_findChild? found
                  have existing : findChild? stated.name children = some child := by
                    rw [name_of_findChild? found]
                    exact findChild?_of_mem baseDistinct member
                  exact (hypothesis stated met child existing (childrenFormed child member)
                    (overlayChildrenFormed stated met) pair).symm
              have keptSame : children = kept := by
                rw [← List.forall₂_eq_eq_eq]
                exact ((List.forall₂_and_left _ _).mpr ⟨fun child member => member, pairs⟩).imp same
              rw [Declaration.merge_of_neutralFor declared, ObjectFacets.merge_of_neutral stated,
                noneAdded, List.append_nil, keptSame]

/-- The child of a name after a merge is what became of the child of that name. -/
theorem findChild?_of_mergedChild
    {path : FieldPath}
    {overlay base kept : List Node}
    (pairs : List.Forall₂ (MergedChild path overlay) base kept)
    {name : String}
    {child : Node}
    (found : findChild? name base = some child)
    (added : List Node) :
    ∃ merged, findChild? name (kept ++ added) = some merged ∧
      MergedChild path overlay child merged := by
  induction pairs with
  | nil => simp [findChild?] at found
  | @cons first partner rest partners pair _ hypothesis =>
      rw [findChild?_cons] at found
      rw [List.cons_append, findChild?_cons, pair.name_eq]
      split at found
      next same =>
        cases found
        exact ⟨partner, if_pos same, pair⟩
      next different =>
        rw [if_neg different]
        exact hypothesis found

/-- Every place of the base is a place of the merged tree. Its node there is the one
of the base if the overlay has none, and else the merge of the two. -/
theorem at?_mergeAt
    {path : FieldPath}
    {base overlay result : Node}
    (baseFormed : base.WellFormed)
    (overlayFormed : overlay.WellFormed)
    (merged : mergeAt path base overlay = .ok result)
    {place : List Step}
    {node : Node}
    (found : base.at? place = some node) :
    ∃ kept, result.at? place = some kept ∧
      match overlay.at? place with
      | none => kept = node
      | some stated => node.WellFormed ∧ stated.WellFormed ∧
          ∃ inner, mergeAt inner node stated = .ok kept := by
  induction place generalizing path base overlay result with
  | nil =>
      rw [at?_nil] at found
      cases found
      exact ⟨result, at?_nil result, by
        rw [at?_nil]
        exact ⟨baseFormed, overlayFormed, path, merged⟩⟩
  | cons step rest hypothesis =>
      cases overlayFormed with
      | scalar =>
          obtain ⟨_, _, _, rfl, -, -⟩ := mergeAt_scalar_spec merged
          cases step <;> simp [at?] at found
      | array overlayElementFormed =>
          obtain ⟨_, _, element, mergedElement, rfl, elements, rfl⟩ := mergeAt_array_spec merged
          cases baseFormed with
          | array elementFormed =>
              cases step with
              | child => simp [at?] at found
              | element =>
                  exact hypothesis elementFormed overlayElementFormed elements found
      | @object _ _ overlayChildren overlayDistinct groupsDistinct _ overlayChildrenFormed =>
          obtain ⟨_, _, children, _, rfl, inner, -, rfl⟩ :=
            mergeAt_object_spec groupsDistinct merged
          cases baseFormed with
          | object baseDistinct _ _ childrenFormed =>
              obtain ⟨kept, pairs, rfl⟩ := mergeChildren_spec overlayDistinct baseDistinct inner
              cases step with
              | element => simp [at?] at found
              | child name =>
                  obtain ⟨child, atName, below⟩ := Option.bind_eq_some_iff.mp found
                  obtain ⟨partner, atPartner, pair⟩ :=
                    findChild?_of_mergedChild pairs atName _
                  rw [at?_child, at?_child, atPartner, Option.bind_some]
                  rw [MergedChild, name_of_findChild? atName] at pair
                  cases stated : findChild? name overlayChildren with
                  | none =>
                      rw [stated] at pair
                      exact ⟨node, pair ▸ below, rfl⟩
                  | some overlayChild =>
                      rw [stated] at pair
                      exact hypothesis (childrenFormed child (mem_of_findChild? atName))
                        (overlayChildrenFormed overlayChild (mem_of_findChild? stated)) pair below

/-- A merge is additive. At every place of the base the result has a node of the same
kind that keeps what the base sets there and differs only where the overlay sets
something; where the overlay has no node or a neutral one, the subtree is the same. -/
theorem merge_additive
    {base overlay result : Node}
    (baseFormed : base.WellFormed)
    (overlayFormed : overlay.WellFormed)
    (merged : base.merge overlay = .ok result)
    {place : List Step}
    {node : Node}
    (found : base.at? place = some node) :
    ∃ kept, result.at? place = some kept ∧ kept.kind = node.kind ∧
      match overlay.at? place with
      | none => kept = node
      | some stated => node.Extends stated kept ∧ (stated.NeutralFor node → kept = node) := by
  obtain ⟨kept, atPlace, become⟩ := at?_mergeAt baseFormed overlayFormed merged found
  refine ⟨kept, atPlace, ?_⟩
  cases atOverlay : overlay.at? place with
  | none =>
      rw [atOverlay] at become
      exact ⟨congrArg kind become, become⟩
  | some stated =>
      rw [atOverlay] at become
      obtain ⟨nodeFormed, statedFormed, inner, mergedHere⟩ := become
      have extended := extends_mergeAt nodeFormed statedFormed mergedHere
      exact ⟨extended.kind_eq, extended, fun neutral =>
        mergeAt_of_neutralFor neutral nodeFormed statedFormed mergedHere⟩

/-- The port that a listener requires. -/
def listenerPort : Node := .scalar { name := "port", required := true } (.int { min := some 1 })

/-- The port of an override, which bounds it from above. -/
def boundedPort : Node := .scalar { name := "port" } (.int { max := some 65535 })

/-- A listener on a port or a socket. -/
def listener : Node :=
  .object { name := "listener" } { groups := [["port", "socket"]] } [
    listenerPort,
    .scalar { name := "socket" } (.string { values := ["tcp", "udp"] })]

/-- An override of a listener with a new child. -/
def listenerOverlay : Node :=
  .object {} { groups := [["address", "socket"]] } [
    .scalar { name := "socket" } (.string { regex := some "" }),
    boundedPort,
    .scalar { name := "address" } (.string {})]

/-- The listener with its override. -/
def mergedListener : Node :=
  .object { name := "listener" } { groups := [["port", "socket"], ["address", "socket"]] } [
    .scalar { name := "port", required := true } (.int { min := some 1, max := some 65535 }),
    .scalar { name := "socket" } (.string { values := ["tcp", "udp"] }),
    .scalar { name := "address" } (.string {})]

theorem wellFormed_listener : listener.WellFormed := by
  refine .object (by decide) (by decide) (by decide) ?_
  intro child member
  simp only [List.mem_cons, List.not_mem_nil, or_false] at member
  rcases member with rfl | rfl <;> exact .scalar _ _

theorem wellFormed_listenerOverlay : listenerOverlay.WellFormed := by
  refine .object (by decide) (by decide) (by decide) ?_
  intro child member
  simp only [List.mem_cons, List.not_mem_nil, or_false] at member
  rcases member with rfl | rfl | rfl <;> exact .scalar _ _

/-- The port of a listener under its override. -/
theorem merge_additive_listener :
    listener.merge listenerOverlay = .ok mergedListener ∧
      ∃ kept, mergedListener.at? [.child "port"] = some kept ∧ kept.kind = .int ∧
        listenerPort.Extends boundedPort kept ∧
        (boundedPort.NeutralFor listenerPort → kept = listenerPort) :=
  have merged : listener.merge listenerOverlay = .ok mergedListener := rfl
  have found : listener.at? [.child "port"] = some listenerPort := rfl
  ⟨merged, merge_additive wellFormed_listener wellFormed_listenerOverlay merged found⟩

end Node
end Schema
end SchemaCompiler
