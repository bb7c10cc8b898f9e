import SchemaCompiler.Name.Standard
import SchemaCompiler.Proofs.Resource.Elements

/-!
# Where a conversion ends

The walk over an entry goes through the target of its reference, and the conversion
through its own fields. An entry without reference is walked as it is converted, so its
conversion ends. Otherwise it ends unless the checked conversion comes back to a
reference; then it goes on for ever.
-/

namespace SchemaCompiler
namespace Resource

open SchemaCompiler.Outcome
open SchemaCompiler.Schema
open SchemaCompiler.Schema.Registry (convertCanonical convertField convertFields)
open Relation

section ComingBack

variable
  [Name.Lettering]
  {registry : Registry}
  {id : String}
  {entry : Node}
  {stack : List String}
  {path : FieldPath}
  {usage : FieldUsage}
  {facts : AttributeFacts}

/-- The checked conversion of the entry comes back to its reference. -/
def ComesBack
    (registry : Registry)
    (id : String)
    (usage : FieldUsage)
    (entry : Node) : Prop :=
  ∃ origin path facts place, id ∈ origin ∧
    checkedCanonical registry origin path usage facts entry = .error (.referenceCycle place id)

/-- With the reference in expansion, the checked conversion of a canonical node avoids it. -/
def AvoidsBelow
    (registry : Registry)
    (id : String)
    (usage : FieldUsage)
    (canonical : Node)
    (made : Except SchemaError Attribute) : Prop :=
  ∀ stack path facts, id ∈ stack →
    Avoids id (checkedCanonical registry stack path usage facts canonical) made

/-- So does that of the fields of an object. -/
def AvoidsInFields
    (registry : Registry)
    (id : String)
    (usage : FieldUsage)
    (groups : List (List String))
    (children : List Node)
    (made : Except SchemaError (List Attribute)) : Prop :=
  ∀ stack path, id ∈ stack →
    Avoids id (checkedFields registry stack path groups (fun _ => usage) children) made

/-- What avoids the reference is not its entry. -/
theorem AvoidsBelow.ne_entry
    {canonical : Node}
    {made : Except SchemaError Attribute}
    (avoids : AvoidsBelow registry id usage canonical made)
    (back : ComesBack registry id usage entry) :
    canonical ≠ entry := by
  rintro rfl
  obtain ⟨origin, start, own, place, member, cycle⟩ := back
  have atEntry := avoids origin start own member
  rw [cycle] at atEntry
  exact atEntry place rfl

/-- A field that opens avoids the reference with its canonical node. -/
theorem AvoidsBelow.field
    {node canonical : Node}
    {there : FieldPath}
    {made : Except SchemaError Attribute}
    (avoids : AvoidsBelow registry id usage canonical made)
    (found : registry.get? id = some entry)
    (back : ComesBack registry id usage entry)
    (opened : openField registry there usage node = .ok (facts, canonical))
    (member : id ∈ stack) :
    Avoids id (checkedField registry stack path usage node) made := by
  have openedHere := openField_at opened path
  rw [checkedField_of_opened openedHere]
  exact Avoids.within found (resolveAt_of_openField openedHere) member (avoids.ne_entry back)
    fun inside fresh => avoids inside path facts fresh

/-- A field that does not open avoids every reference. -/
theorem avoids_of_unopened
    {node : Node}
    {there : FieldPath}
    {cause : SchemaError}
    (unopened : openField registry there usage node = .error cause)
    (made : Except SchemaError Attribute) :
    Avoids id (checkedField registry stack path usage node) made := by
  rw [checkedField_eq]
  refine Avoids.bind (fun place => openField_ne_cycle) fun opened openedHere => ?_
  rw [openField_at openedHere there] at unopened
  cases unopened

/-- An object avoids the reference with its fields. -/
theorem AvoidsInFields.object
    {declaration : Declaration}
    {facets : ObjectFacets}
    {children : List Node}
    {made : Except SchemaError (List Attribute)}
    (avoids : AvoidsInFields registry id usage facets.groups (Node.sorted children) made)
    (change : List Attribute → Attribute) :
    AvoidsBelow registry id usage (.object declaration facets children) (made.map change) := by
  intro stack path facts member
  rw [checkedCanonical_object]
  exact (avoids stack path member).map _ _

/-- A list of objects avoids the reference with the fields of its elements. -/
theorem AvoidsInFields.listOfObjects
    {declaration innerDeclaration : Declaration}
    {facets : ArrayFacets}
    {element : Node}
    {innerFacets : ObjectFacets}
    {children : List Node}
    {there : FieldPath}
    {made : Except SchemaError (List Attribute)}
    (avoids : AvoidsInFields registry id usage innerFacets.groups (Node.sorted children) made)
    (found : registry.get? id = some entry)
    (back : ComesBack registry id usage entry)
    (resolved :
      registry.resolveAt there element = .ok (.object innerDeclaration innerFacets children))
    (change : List Attribute → Attribute) :
    AvoidsBelow registry id usage (.array declaration facets element) (made.map change) := by
  intro stack path facts member
  have resolvedHere := Registry.resolveAt_at resolved path
  rw [checkedCanonical_array_of_object resolvedHere]
  exact Avoids.within found resolvedHere member ((avoids.object change).ne_entry back)
    fun inside fresh => (avoids inside path fresh).map _ _

/-- A list of anything else avoids every reference if its element type has an end. -/
theorem avoidsBelow_list
    {declaration : Declaration}
    {facets : ArrayFacets}
    {element inner : Node}
    {there : FieldPath}
    {type : Except SchemaError ElementType}
    (resolved : registry.resolveAt there element = .ok inner)
    (other : ∀ declaration facets children, inner ≠ .object declaration facets children)
    (searched : Registry.elementType registry there inner = some type)
    (change : ElementType → Attribute) :
    AvoidsBelow registry id usage (.array declaration facets element) (type.map change) := by
  intro stack path facts member
  rw [checkedCanonical_array_of_other (Registry.resolveAt_at resolved path) other]
  exact (avoids_of_elementType_some searched path id).map _ _

/-- So does a list whose element does not resolve. -/
theorem avoidsBelow_unresolved
    {declaration : Declaration}
    {facets : ArrayFacets}
    {element : Node}
    {there : FieldPath}
    {cause : SchemaError}
    (unresolved : registry.resolveAt there element = .error cause)
    (made : Except SchemaError Attribute) :
    AvoidsBelow registry id usage (.array declaration facets element) made := by
  intro stack path facts member
  cases resolved : registry.resolveAt path element with
  | error causeHere =>
      rw [checkedCanonical_array_of_unresolved resolved]
      rintro place rfl
      exact Registry.resolveAt_ne_cycle resolved
  | ok inner =>
      rw [Registry.resolveAt_at resolved there] at unresolved
      cases unresolved

/-- A conversion that ends avoids a reference whose entry comes back to it. -/
theorem avoidsBelow_of_converted
    {canonical : Node}
    {made : Except SchemaError Attribute}
    {there : FieldPath}
    (found : registry.get? id = some entry)
    (back : ComesBack registry id usage entry)
    (converted : convertCanonical registry there usage facts canonical = some made) :
    AvoidsBelow registry id usage canonical made := by
  refine (Registry.convertField.mutual_partial_correctness registry
    (fun _ usedAs node made => usedAs = usage → ∀ stack path, id ∈ stack →
      Avoids id (checkedField registry stack path usage node) made)
    (fun _ usedAs _ canonical made => usedAs = usage →
      AvoidsBelow registry id usage canonical made)
    (fun _ groups usedAs children made => (usedAs = fun _ => usage) →
      AvoidsInFields registry id usage groups children made)
    ?field ?canonical ?fields).2.1 there usage facts canonical made converted rfl
  case field =>
    rintro convert hypothesis there usedAs node made ended rfl stack path member
    cases opened : openField registry there usedAs node with
    | error cause => exact avoids_of_unopened opened made
    | ok parts =>
        rw [opened] at ended
        have below := hypothesis _ _ _ _ made ended rfl
        exact below.field found back opened member
  case canonical =>
    rintro convert hypothesis there _ facts canonical made ended rfl
    cases canonical with
    | scalar declaration facets =>
        cases ended
        intro stack path facts member
        rw [checkedCanonical]
        exact ⟨_, rfl⟩
    | object declaration facets children =>
        obtain ⟨attributes, converted, made⟩ := Option.bind_eq_some_iff.mp ended
        cases made
        exact (hypothesis _ _ _ _ attributes converted rfl).object _
    | array declaration facets element =>
        cases resolved : registry.resolveAt there element with
        | error cause => exact avoidsBelow_unresolved resolved made
        | ok inner =>
            dsimp only at ended
            rw [resolved] at ended
            cases inner with
            | object innerDeclaration innerFacets children =>
                obtain ⟨attributes, converted, made⟩ := Option.bind_eq_some_iff.mp ended
                cases made
                have below := hypothesis _ _ _ _ attributes converted rfl
                exact below.listOfObjects found back resolved _
            | scalar | array =>
                obtain ⟨type, searched, made⟩ := Option.bind_eq_some_iff.mp ended
                cases made
                exact avoidsBelow_list resolved (by simp) searched _
  case fields =>
    rintro convert convertRest firstHypothesis restHypothesis there groups _ children made
      ended rfl stack path member
    cases children with
    | nil =>
        cases ended
        rw [checkedFields]
        exact ⟨_, rfl⟩
    | cons child rest =>
        obtain ⟨first, converted, ended⟩ := Option.bind_eq_some_iff.mp ended
        have below := firstHypothesis _ _ _ _ converted rfl stack (path.child child.name) member
        rw [checkedFields]
        refine below.bind_ok fun value given same => ?_
        subst same
        obtain ⟨others, convertedRest, made⟩ := Option.bind_eq_some_iff.mp ended
        cases made
        exact (restHypothesis _ _ _ _ _ convertedRest rfl stack path member).map _ _

/-- A field whose checked conversion comes back to its reference has no end. -/
theorem convertCanonical_eq_none_of_cycle
    {origin : List String}
    {start place : FieldPath}
    {own : AttributeFacts}
    (found : registry.get? id = some entry)
    (inOrigin : id ∈ origin)
    (cycle : checkedCanonical registry origin start usage own entry =
      .error (.referenceCycle place id))
    (other : FieldPath)
    (facts : AttributeFacts) :
    convertCanonical registry other usage facts entry = none := by
  have back : ComesBack registry id usage entry := ⟨origin, start, own, place, inOrigin, cycle⟩
  cases ended : convertCanonical registry other usage facts entry with
  | none => rfl
  | some made =>
      exact absurd rfl ((avoidsBelow_of_converted found back ended).ne_entry back)

end ComingBack

/-- So do the fields of an object whose checked conversion comes back to its reference. -/
theorem convertFields_eq_none_of_cycle
    [Name.Lettering]
    {registry : Registry}
    {id : String}
    {declaration : Declaration}
    {facets : ObjectFacets}
    {children : List Node}
    {origin : List String}
    {path place : FieldPath}
    {usage : FieldUsage}
    (facts : AttributeFacts)
    (found : registry.get? id = some (.object declaration facets children))
    (inOrigin : id ∈ origin)
    (cycle :
      checkedFields registry origin path facets.groups (fun _ => usage) (Node.sorted children) =
        .error (.referenceCycle place id)) :
    convertFields registry path facets.groups (fun _ => usage) (Node.sorted children) = none := by
  have cycleAbove :
      checkedCanonical registry origin path usage facts (.object declaration facets children) =
        .error (.referenceCycle place id) := by
    rw [checkedCanonical_object, cycle]
    rfl
  have endless := convertCanonical_eq_none_of_cycle found inOrigin cycleAbove path facts
  rw [convertCanonical] at endless
  cases converted :
      convertFields registry path facets.groups (fun _ => usage) (Node.sorted children) with
  | none => rfl
  | some attributes =>
      rw [converted] at endless
      cases endless

/-- A field that opens is converted as its canonical node. -/
theorem faithful_checkedField_of_opened
    [Name.Lettering]
    {registry : Registry}
    {stack : List String}
    {path : FieldPath}
    {usage : FieldUsage}
    {node canonical : Node}
    {facts : AttributeFacts}
    (opened : openField registry path usage node = .ok (facts, canonical))
    (below : ∀ inside, within stack path node = .ok inside →
      Faithful registry inside canonical.references
        (checkedCanonical registry inside path usage facts canonical)
        (convertCanonical registry path usage facts canonical)) :
    Faithful registry stack node.frontier (checkedField registry stack path usage node)
      (convertField registry path usage node) := by
  rw [checkedField_eq, convertField, opened, ok_bind]
  apply Faithful.within (resolveAt_of_openField opened) below
  intro id found inside member place cycle
  exact convertCanonical_eq_none_of_cycle found member cycle path facts

/-- A list of objects is converted as the fields of its elements. -/
theorem faithful_checkedCanonical_of_object
    [Name.Lettering]
    {registry : Registry}
    {stack : List String}
    {path : FieldPath}
    {usage : FieldUsage}
    {facts : AttributeFacts}
    {declaration innerDeclaration : Declaration}
    {facets : ArrayFacets}
    {innerFacets : ObjectFacets}
    {element : Node}
    {children : List Node}
    (resolved :
      registry.resolveAt path element = .ok (.object innerDeclaration innerFacets children))
    (below : ∀ inside, within stack path element = .ok inside →
      Faithful registry inside ((Node.sorted children).flatMap Node.frontier)
        (checkedFields registry inside path innerFacets.groups (fun _ => usage)
          (Node.sorted children))
        (convertFields registry path innerFacets.groups (fun _ => usage)
          (Node.sorted children))) :
    Faithful registry stack (Node.array declaration facets element).references
      (checkedCanonical registry stack path usage facts (.array declaration facets element))
      (convertCanonical registry path usage facts (.array declaration facets element)) := by
  rw [checkedCanonical_array_of_object resolved, convertCanonical, resolved,
    Node.references_array]
  apply Faithful.within resolved
  · intro inside entered
    rw [Node.references_object]
    refine ((below inside entered).map _).of_subset ?_
    exact fun reference => (Node.mem_flatMap_sorted reference children).mp
  · intro id found inside member place cycle
    dsimp only
    rw [convertFields_eq_none_of_cycle facts found member (Faithful.eq_cycle_of_map cycle)]
    rfl

/-- A list of anything else is converted as its element type is searched for, from the start. -/
theorem faithful_checkedCanonical_of_other
    [Name.Lettering]
    {registry : Registry}
    {stack : List String}
    {path : FieldPath}
    {usage : FieldUsage}
    {facts : AttributeFacts}
    {declaration : Declaration}
    {facets : ArrayFacets}
    {element inner : Node}
    (resolved : registry.resolveAt path element = .ok inner)
    (other : ∀ declaration facets children, inner ≠ .object declaration facets children) :
    Faithful registry stack (Node.array declaration facets element).references
      (checkedCanonical registry stack path usage facts (.array declaration facets element))
      (convertCanonical registry path usage facts (.array declaration facets element)) := by
  have search := (faithful_checkedElement registry [] path inner).map
    (listAttribute facts facets inner)
  rw [checkedCanonical_array_of_other resolved other, convertCanonical, resolved,
    Node.references_array]
  cases inner with
  | scalar innerDeclaration innerFacets => exact .afresh resolved search
  | array innerDeclaration innerFacets innerElement => exact .afresh resolved search
  | object innerDeclaration innerFacets children => exact (other _ _ _ rfl).elim

/-- The first field and the others are converted one after the other. -/
theorem faithful_checkedFields_cons
    [Name.Lettering]
    {registry : Registry}
    {stack : List String}
    {path : FieldPath}
    {groups : List (List String)}
    {usage : String → FieldUsage}
    {child : Node}
    {rest : List Node}
    (first : Faithful registry stack child.frontier
      (checkedField registry stack (path.child child.name) (usage child.name) child)
      (convertField registry (path.child child.name) (usage child.name) child))
    (others : Faithful registry stack (rest.flatMap Node.frontier)
      (checkedFields registry stack path groups usage rest)
      (convertFields registry path groups usage rest)) :
    Faithful registry stack ((child :: rest).flatMap Node.frontier)
      (checkedFields registry stack path groups usage (child :: rest))
      (convertFields registry path groups usage (child :: rest)) := by
  rw [checkedFields, convertFields, List.flatMap_cons]
  cases checked :
      checkedField registry stack (path.child child.name) (usage child.name) child with
  | error cause =>
      rw [checked] at first
      rw [error_bind]
      refine ⟨?_, ?_, ?_⟩
      · intro ended
        rw [first.agrees fun path id cycle => ended path id (by cases cycle; rfl)]
        rfl
      · intro place id cycle
        rcases first.ends place id (by cases cycle; rfl) with member | endless
        · exact .inl member
        · rw [endless]
          exact .inr rfl
      · intro root pending place id cycle
        refine first.back root ?_ place id (by cases cycle; rfl)
        exact fun reference member => pending reference (List.mem_append_left _ member)
  | ok value =>
      rw [checked] at first
      rw [first.agrees (by simp), ok_bind]
      have mapped := others.map (addGroup groups child.name value :: ·)
      refine Faithful.of_subset ?_ fun reference member => List.mem_append_right _ member
      cases outcome : checkedFields registry stack path groups usage rest <;>
        rw [outcome] at mapped <;> exact mapped

/-- A conversion agrees with its checked form unless that one comes back to a reference;
then the conversion has no end. -/
theorem faithful_checkedFields [Name.Lettering] (registry : Registry) :
    (∀ stack path usage node,
      Faithful registry stack node.frontier (checkedField registry stack path usage node)
        (convertField registry path usage node)) ∧
    (∀ stack path usage facts canonical,
      Faithful registry stack canonical.references
        (checkedCanonical registry stack path usage facts canonical)
        (convertCanonical registry path usage facts canonical)) ∧
    ∀ stack path groups usage children,
      Faithful registry stack (children.flatMap Node.frontier)
        (checkedFields registry stack path groups usage children)
        (convertFields registry path groups usage children) := by
  apply checked_induct registry
  case unopened =>
    intro stack path usage node cause failed
    rw [checkedField_eq, convertField, failed, error_bind]
    refine .of_ended ?_
    rintro place id same
    cases same
    exact openField_ne_cycle failed
  case opened =>
    intro stack path usage node facts canonical opened below
    exact faithful_checkedField_of_opened opened below
  case scalar =>
    intro stack path usage facts declaration facets
    rw [checkedCanonical, convertCanonical]
    exact .of_ended fun path id => by simp
  case object =>
    intro stack path usage facts declaration facets children below
    rw [checkedCanonical_object, convertCanonical, Node.references_object]
    refine (below.map _).of_subset ?_
    exact fun reference => (Node.mem_flatMap_sorted reference children).mp
  case unresolved =>
    intro stack path usage facts declaration facets element cause failed
    rw [checkedCanonical_array_of_unresolved failed, convertCanonical, failed]
    refine .of_ended ?_
    rintro place id same
    cases same
    exact Registry.resolveAt_ne_cycle failed
  case listOfObjects =>
    intro stack path usage facts declaration facets element innerDeclaration innerFacets children
      resolved below
    exact faithful_checkedCanonical_of_object resolved below
  case list =>
    intro stack path usage facts declaration facets element inner resolved other
    exact faithful_checkedCanonical_of_other resolved other
  case nil =>
    intro stack path groups usage
    rw [checkedFields, convertFields]
    exact .of_ended fun path id => by simp
  case cons =>
    intro stack path groups usage child rest first others
    exact faithful_checkedFields_cons first others

/-- With nothing in expansion, a conversion has no end exactly where its checked form
comes back to a reference. -/
theorem Faithful.eq_none_iff
    {registry : Registry}
    {references : List Node}
    {checked : Except SchemaError α}
    {made : Option (Except SchemaError α)}
    (faithful : Faithful registry [] references checked made) :
    made = none ↔ ∃ path id, checked = .error (.referenceCycle path id) := by
  constructor
  · intro endless
    refine Classical.byContradiction fun never => ?_
    have ended := faithful.agrees fun path id cycle => never ⟨path, id, cycle⟩
    rw [endless] at ended
    cases ended
  · rintro ⟨path, id, cycle⟩
    rcases faithful.ends path id cycle with impossible | endless
    · cases impossible
    · exact endless

/-- The resource schema of a namespace by the checked conversion. -/
def checkedNamespace
    [Name.Lettering]
    (registry : Registry)
    (usage : UsageIndex)
    (managed : Namespace) : Except SchemaError ResourceSchema :=
  match registry.root managed.schema with
  | .error cause => .error cause
  | .ok (.object declaration facets children) => do
      let _ ← registry.collect .expanded (.object declaration facets children)
      let attributes ← checkedFields registry [] FieldPath.root facets.groups usage.usage
        (Node.sorted children)
      return schemaOf managed declaration attributes
  | .ok other => .error (.rootNotObject (FieldPath.single managed.schema) other.kind)

/-- The references of the fields of an object are pending in a walk over fields alone. -/
theorem pending_fields
    [Name.Lettering]
    (registry : Registry)
    (declaration : Declaration)
    (facets : ObjectFacets)
    (children : List Node)
    (plain : (Node.object declaration facets children).reference? = none) :
    ∀ reference ∈ (Node.sorted children).flatMap Node.frontier,
      registry.Pending (.object declaration facets children) [] reference := by
  intro reference met
  refine ⟨.start ?_, by simp⟩
  rw [Node.frontier_of_reference?_none plain, Node.references_object]
  exact (Node.mem_flatMap_sorted reference children).mp met

/-- The conversion of a walked entry stands to its checked form as that of its fields. -/
theorem faithful_checkedNamespace
    [Name.Lettering]
    {registry : Registry}
    {managed : Namespace}
    {declaration : Declaration}
    {facets : ObjectFacets}
    {children : List Node}
    {visits : List Visit}
    (usage : UsageIndex)
    (found : registry.root managed.schema = .ok (.object declaration facets children))
    (walked : registry.collect .expanded (.object declaration facets children) = .ok visits) :
    Faithful registry [] ((Node.sorted children).flatMap Node.frontier)
      (checkedNamespace registry usage managed) (ofNamespace registry usage managed) := by
  obtain ⟨_, _, faithful⟩ := faithful_checkedFields registry
  have mapped :=
    (faithful [] FieldPath.root facets.groups usage.usage (Node.sorted children)).map
      (schemaOf managed declaration)
  unfold checkedNamespace ofNamespace
  rw [found]
  dsimp only
  rw [walked, ok_bind]
  cases checked : checkedFields registry [] FieldPath.root facets.groups usage.usage
      (Node.sorted children) <;> rw [checked] at mapped <;> exact mapped

/-- Without an entry that can be walked the conversion ends as its checked form does, and a
reference that this comes back to is one that the walk has come back to. -/
theorem ofNamespace_of_not_walked
    [Name.Lettering]
    (registry : Registry)
    (usage : UsageIndex)
    (managed : Namespace)
    (notWalked : ∀ declaration facets children visits,
      registry.root managed.schema = .ok (.object declaration facets children) →
      registry.collect .expanded (.object declaration facets children) ≠ .ok visits) :
    ofNamespace registry usage managed = some (checkedNamespace registry usage managed) ∧
      ∀ path id, checkedNamespace registry usage managed = .error (.referenceCycle path id) →
        ∃ root, registry.root managed.schema = .ok root ∧
          registry.collect .expanded root = .error (.referenceCycle path id) := by
  unfold ofNamespace checkedNamespace
  cases found : registry.root managed.schema with
  | error cause =>
      refine ⟨rfl, ?_⟩
      rintro path id cycle
      cases cycle
      unfold Registry.root at found
      split at found <;> cases found
  | ok root =>
      cases root with
      | scalar declaration facets => exact ⟨rfl, fun path id cycle => by cases cycle⟩
      | array declaration facets element => exact ⟨rfl, fun path id cycle => by cases cycle⟩
      | object declaration facets children =>
          dsimp only
          cases walked : registry.collect .expanded (.object declaration facets children) with
          | ok visits => exact absurd walked (notWalked _ _ _ visits found)
          | error cause =>
              refine ⟨rfl, ?_⟩
              intro path id cycle
              cases cycle
              exact ⟨_, rfl, walked⟩

/-- The conversion of a namespace has no end exactly where its entry carries a reference,
the walk through the target of the reference comes through, and the checked conversion of
the fields of the entry itself comes back to a reference. Everywhere else it ends with the
outcome of the checked conversion. A reference that this one comes back to belongs to one
of the cycles of the registry. -/
theorem ofNamespace_eq_none_iff
    [Name.Lettering]
    (registry : Registry)
    (usage : UsageIndex)
    (managed : Namespace) :
    (ofNamespace registry usage managed = none ↔
      ∃ root visits path id,
        registry.root managed.schema = .ok root ∧ root.isReference ∧
          registry.collect .expanded root = .ok visits ∧
          checkedNamespace registry usage managed = .error (.referenceCycle path id)) ∧
    (∀ outcome, ofNamespace registry usage managed = some outcome →
      outcome = checkedNamespace registry usage managed) ∧
    ∀ path id, checkedNamespace registry usage managed = .error (.referenceCycle path id) →
      ∃ cycle ∈ registry.cycles, id ∈ cycle := by
  by_cases isWalked : ∃ declaration facets children visits,
      registry.root managed.schema = .ok (.object declaration facets children) ∧
        registry.collect .expanded (.object declaration facets children) = .ok visits
  · obtain ⟨declaration, facets, children, visits, found, walked⟩ := isWalked
    have faithful := faithful_checkedNamespace usage found walked
    refine ⟨⟨?_, ?_⟩, ?_, ?_⟩
    · intro endless
      obtain ⟨path, id, cycle⟩ := faithful.eq_none_iff.mp endless
      refine ⟨_, visits, path, id, found, ?_, walked, cycle⟩
      cases named : (Node.object declaration facets children).reference? with
      | some name => simp [Node.isReference, named]
      | none =>
          obtain ⟨reached, back⟩ := faithful.back _ (pending_fields _ _ _ _ named) path id cycle
          exact absurd back (Registry.not_transGen_of_collect_ok walked reached)
    · rintro ⟨root, others, path, id, _, _, _, cycle⟩
      exact faithful.eq_none_iff.mpr ⟨path, id, cycle⟩
    · intro outcome ended
      have same := faithful.agrees fun path id cycle => by
        rw [faithful.eq_none_iff.mpr ⟨path, id, cycle⟩] at ended
        cases ended
      exact Option.some.inj (ended.symm.trans same)
    · intro path id cycle
      -- the fields of the entry are those of an object without reference
      have pending := pending_fields registry {} facets children rfl
      exact Registry.exists_cycle_of_leads (faithful.back _ pending path id cycle).2
  · obtain ⟨ended, cycles⟩ := ofNamespace_of_not_walked registry usage managed
      fun declaration facets children visits found walked =>
        isWalked ⟨declaration, facets, children, visits, found, walked⟩
    refine ⟨⟨?_, ?_⟩, ?_, ?_⟩
    · intro endless
      rw [ended] at endless
      cases endless
    · rintro ⟨root, visits, path, id, found, _, walked, cycle⟩
      obtain ⟨other, foundOther, failed⟩ := cycles path id cycle
      obtain rfl : root = other := Except.ok.inj (found.symm.trans foundOther)
      rw [walked] at failed
      cases failed
    · intro outcome same
      exact (Option.some.inj (ended.symm.trans same)).symm
    · intro path id cycle
      obtain ⟨root, _, failed⟩ := cycles path id cycle
      exact Registry.exists_cycle_of_leads (Registry.transGen_of_collect_cycle failed).2

/-- A list of lists of itself. -/
def endlessRows : Node :=
  .array { name := "loop" } {}
    (.array { reference := some "loop" } {} (.scalar {} (.bool {})))

/-- A field that stands for the list. -/
def rowsField : Node :=
  .array { name := "rows", reference := some "loop" } {} (.scalar {} (.bool {}))

/-- An entry that carries a reference, with fields of its own beside it. -/
def rowsRoot : Node :=
  .object { name := "root", reference := some "leaf" } {} [rowsField]

/-- The entry, the target of its reference, and the list that its field stands for. -/
def rowsRegistry : Registry :=
  ⟨.ofList [("leaf", .object { name := "leaf" } {} []), ("loop", endlessRows), ("root", rowsRoot)]⟩

/-- A namespace that manages the entry. -/
def rowsNamespace : Namespace := { schema := "root" }

/-- The walk over the entry meets the target of its reference only. -/
theorem collect_rowsRoot :
    ∃ visits, rowsRegistry.collect .expanded rowsRoot = .ok visits := by
  have resolved : rowsRegistry.resolveAt FieldPath.root rowsRoot =
      .ok (.object { name := "leaf" } {} []) := rfl
  unfold Registry.collect
  rw [resolved, ok_bind, Registry.descend_object]
  simp [Node.sorted]

/-- The element type of the list comes back to the list. -/
theorem checkedElement_endlessRows (path : FieldPath) :
    checkedElement rowsRegistry [] path endlessRows = .error (.referenceCycle path "loop") := by
  have resolved : rowsRegistry.resolveAt path
      (.array { reference := some "loop" } {} (.scalar {} (.bool {}))) = .ok endlessRows := rfl
  rw [endlessRows, checkedElement_array, resolved, ok_bind]
  have entered : within [] path
      (.array { reference := some "loop" } {} (.scalar {} (.bool {}))) = .ok ["loop"] := rfl
  rw [entered, ok_bind, endlessRows, checkedElement_array, resolved, ok_bind]
  rfl

/-- So does the field of the entry, however it travels. -/
theorem checkedField_rowsField
    (path : FieldPath)
    (usage : FieldUsage) :
    checkedField rowsRegistry [] path usage rowsField =
      .error (.referenceCycle path "loop") := by
  have opened : ∃ facts,
      openField rowsRegistry path usage rowsField = .ok (facts, endlessRows) := by
    cases usage <;> exact ⟨_, rfl⟩
  obtain ⟨facts, opened⟩ := opened
  have entered : within [] path rowsField = .ok ["loop"] := rfl
  have resolved : rowsRegistry.resolveAt path
      (.array { reference := some "loop" } {} (.scalar {} (.bool {}))) = .ok endlessRows := rfl
  rw [checkedField_eq, opened, ok_bind, entered, ok_bind]
  dsimp only
  rw [endlessRows, checkedCanonical_array_of_other resolved (by simp [endlessRows]),
    checkedElement_endlessRows]
  rfl

/-- Not every conversion ends: that of this entry does not, though its walk does. -/
theorem ofNamespace_rowsRegistry :
    ¬∀ registry usage managed, ∃ outcome, ofNamespace registry usage managed = some outcome := by
  intro total
  obtain ⟨outcome, ended⟩ := total rowsRegistry ⟨.empty, .empty⟩ rowsNamespace
  obtain ⟨visits, walked⟩ := collect_rowsRoot
  have found : rowsRegistry.root rowsNamespace.schema = .ok rowsRoot := rfl
  have faithful := faithful_checkedNamespace ⟨.empty, .empty⟩ found walked
  have cycle : checkedNamespace rowsRegistry ⟨.empty, .empty⟩ rowsNamespace =
      .error (.referenceCycle (FieldPath.root.child "rows") "loop") := by
    unfold checkedNamespace
    rw [found]
    dsimp only [rowsRoot]
    rw [← rowsRoot, walked, ok_bind]
    have sorted : Node.sorted [rowsField] = [rowsField] := List.mergeSort_singleton _
    rw [sorted, checkedFields, checkedField_rowsField]
    rfl
  rw [faithful.eq_none_iff.mpr ⟨_, _, cycle⟩] at ended
  cases ended

end Resource
end SchemaCompiler
