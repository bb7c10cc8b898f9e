import SchemaCompiler.Proofs.Registry.CycleDetection
import SchemaCompiler.Proofs.Resource.CheckedConversion

/-!
# Checked and unchecked types of elements

Where the checked search for an element type comes back to a reference, the search itself
opens the entry again, and so for ever: if it came to an end, it would at one of the
openings, and none of them differs from the first. Everywhere else the two agree.
-/

namespace SchemaCompiler
namespace Resource

open SchemaCompiler.Outcome
open SchemaCompiler.Schema
open SchemaCompiler.Schema.Registry (elementType)
open Relation

/-- What a field states about itself does not depend on its path. -/
theorem openField_at
    [Name.Lettering]
    {registry : Registry}
    {path : FieldPath}
    {usage : FieldUsage}
    {node : Node}
    {opened : AttributeFacts × Node}
    (made : openField registry path usage node = .ok opened)
    (other : FieldPath) :
    openField registry other usage node = .ok opened := by
  obtain ⟨canonical, resolved, rest⟩ := bind_eq_ok_iff.mp made
  obtain ⟨exposure, classified, same⟩ := bind_eq_ok_iff.mp rest
  have classifiedThere : classify node canonical usage other = .ok exposure := by
    unfold classify at classified ⊢
    cases usage <;> grind
  unfold openField
  rw [Registry.resolveAt_at resolved other, ok_bind, classifiedThere]
  exact same

/-- A field that does not open is never reported as a reference inside itself. -/
theorem openField_ne_cycle
    [Name.Lettering]
    {registry : Registry}
    {path place : FieldPath}
    {usage : FieldUsage}
    {node : Node}
    {name : String} :
    openField registry path usage node ≠ .error (.referenceCycle place name) := by
  intro failed
  rcases bind_eq_error_iff.mp failed with unresolved | ⟨canonical, _, failed⟩
  · exact Registry.resolveAt_ne_cycle unresolved
  · rcases bind_eq_error_iff.mp failed with unclassified | ⟨exposure, _, impossible⟩
    · unfold classify at unclassified
      cases usage <;> grind
    · cases impossible

/-- The checked conversion does not come back to the reference, and it has a result only
if the conversion has one. -/
def Avoids
    (id : String)
    (checked : Except SchemaError α)
    (made : Except SchemaError β) : Prop :=
  match checked with
  | .ok _ => ∃ value, made = .ok value
  | .error cause => ∀ path, cause ≠ .referenceCycle path id

theorem Avoids.map
    {id : String}
    {checked : Except SchemaError α}
    {made : Except SchemaError β}
    (avoids : Avoids id checked made)
    (change : α → γ)
    (other : β → δ) :
    Avoids id (checked.map change) (made.map other) := by
  cases checked with
  | ok value =>
      obtain ⟨result, rfl⟩ := avoids
      exact ⟨other result, rfl⟩
  | error cause => exact avoids

/-- A step that fails for another reason leaves nothing to come back from. -/
theorem Avoids.bind
    {id : String}
    {first : Except SchemaError α}
    {next : α → Except SchemaError β}
    {made : Except SchemaError γ}
    (failing : ∀ path, first ≠ .error (.referenceCycle path id))
    (avoids : ∀ value, first = .ok value → Avoids id (next value) made) :
    Avoids id (first >>= next) made := by
  cases first with
  | ok value => exact avoids value rfl
  | error cause => exact fun path same => failing path (congrArg _ same)

/-- A step that stays away from the reference leaves it to the steps after. -/
theorem Avoids.bind_ok
    {id : String}
    {first : Except SchemaError α}
    {madeFirst : Except SchemaError β}
    {next : α → Except SchemaError γ}
    {made : Except SchemaError δ}
    (ofFirst : Avoids id first madeFirst)
    (ofNext : ∀ value result, madeFirst = .ok result → Avoids id (next value) made) :
    Avoids id (first >>= next) made := by
  cases first with
  | ok value =>
      obtain ⟨result, same⟩ := ofFirst
      exact ofNext value result same
  | error cause => exact ofFirst

/-- A step into a node that does not resolve to the entry of the reference stays away
from it if what is below does. -/
theorem Avoids.within
    {registry : Registry}
    {id : String}
    {entry node canonical : Node}
    {stack : List String}
    {path : FieldPath}
    {descend : List String → Except SchemaError α}
    {made : Except SchemaError β}
    (found : registry.get? id = some entry)
    (resolved : registry.resolveAt path node = .ok canonical)
    (member : id ∈ stack)
    (different : canonical ≠ entry)
    (below : ∀ inside, id ∈ inside → Avoids id (descend inside) made) :
    Avoids id (Resource.within stack path node >>= descend) made := by
  unfold Resource.within
  unfold Registry.resolveAt at resolved
  cases named : node.reference? with
  | none => exact below stack member
  | some name =>
      rw [named] at resolved
      have notId : name ≠ id := by
        rintro rfl
        have resolvedEntry := (Registry.target_eq_ok_iff.mp resolved).1
        exact different (Option.some.inj (resolvedEntry.symm.trans found))
      dsimp only
      split
      · intro place same
        cases same
        exact notId rfl
      · exact below (name :: stack) (List.mem_cons_of_mem name member)

/-- The type of an element whose checked search comes back to its reference has no end. -/
theorem elementType_eq_none_of_cycle
    {registry : Registry}
    {id : String}
    {entry : Node}
    {origin : List String}
    {path place : FieldPath}
    (found : registry.get? id = some entry)
    (inOrigin : id ∈ origin)
    (cycle : checkedElement registry origin path entry = .error (.referenceCycle place id))
    (other : FieldPath) :
    elementType registry other entry = none := by
  have avoids : ∀ canonical made, elementType registry other canonical = some made →
      ∀ stack, id ∈ stack → Avoids id (checkedElement registry stack path canonical) made := by
    apply Registry.elementType.partial_correctness registry other fun canonical made =>
      ∀ stack, id ∈ stack → Avoids id (checkedElement registry stack path canonical) made
    intro search hypothesis canonical made ended stack member
    cases canonical with
    | scalar declaration facets =>
        cases ended
        rw [checkedElement]
        exact ⟨_, rfl⟩
    | object declaration facets children =>
        cases ended
        rw [checkedElement]
        exact ⟨_, rfl⟩
    | array declaration facets element =>
        rw [checkedElement_array]
        apply Avoids.bind fun place => Registry.resolveAt_ne_cycle
        intro inner resolved
        have resolvedThere := Registry.resolveAt_at resolved other
        dsimp only at ended
        rw [resolvedThere] at ended
        obtain ⟨type, searched, made⟩ := Option.bind_eq_some_iff.mp ended
        cases made
        have below := hypothesis inner type searched
        refine Avoids.within found resolved member ?_ ?_
        · rintro rfl
          have atEntry := below origin inOrigin
          rw [cycle] at atEntry
          exact atEntry place rfl
        · intro inside fresh
          exact (below inside fresh).map ElementType.list ElementType.list
  cases ended : elementType registry other entry with
  | none => rfl
  | some made =>
      have atEntry := avoids entry made ended origin inOrigin
      rw [cycle] at atEntry
      exact absurd rfl (atEntry place)

/-- How a checked conversion stands to the conversion. They agree unless the checked one
comes back to a reference; then the reference was in expansion before, or the conversion
has no end. If all references below are pending in a walk, the reference leads back to
itself. -/
structure Faithful
    (registry : Registry)
    (stack : List String)
    (references : List Node)
    (checked : Except SchemaError α)
    (made : Option (Except SchemaError α)) : Prop where
  agrees : (∀ path id, checked ≠ .error (.referenceCycle path id)) → made = some checked
  ends : ∀ path id, checked = .error (.referenceCycle path id) → id ∈ stack ∨ made = none
  back : ∀ root, (∀ reference ∈ references, registry.Pending root stack reference) →
    ∀ path id, checked = .error (.referenceCycle path id) →
      registry.Reaches root id ∧ TransGen registry.Leads id id

namespace Faithful

variable
  {registry : Registry}
  {stack : List String}
  {references : List Node}
  {checked : Except SchemaError α}
  {made : Option (Except SchemaError α)}

/-- An outcome that comes back to no reference stands for itself. -/
theorem of_ended
    (ended : ∀ path id, checked ≠ .error (.referenceCycle path id)) :
    Faithful registry stack references checked (some checked) where
  agrees _ := rfl
  ends path id cycle := absurd cycle (ended path id)
  back _ _ path id cycle := absurd cycle (ended path id)

/-- More references may be pending. -/
theorem of_subset
    {fewer : List Node}
    (faithful : Faithful registry stack fewer checked made)
    (subset : ∀ reference ∈ fewer, reference ∈ references) :
    Faithful registry stack references checked made where
  agrees := faithful.agrees
  ends := faithful.ends
  back root pending :=
    faithful.back root fun reference member => pending reference (subset reference member)

theorem eq_cycle_of_map
    {change : α → β}
    {path : FieldPath}
    {id : String}
    (cycle : checked.map change = .error (.referenceCycle path id)) :
    checked = .error (.referenceCycle path id) := by
  cases checked with
  | ok value => cases cycle
  | error cause => exact congrArg _ (Except.error.inj cycle)

/-- A change of both results. -/
theorem map
    (faithful : Faithful registry stack references checked made)
    (change : α → β) :
    Faithful registry stack references (checked.map change)
      (made >>= fun outcome => pure (outcome.map change)) where
  agrees ended := by
    have endedBefore : ∀ path id, checked ≠ .error (.referenceCycle path id) := by
      rintro path id rfl
      exact ended path id rfl
    rw [faithful.agrees endedBefore]
    rfl
  ends path id cycle := by
    rcases faithful.ends path id (eq_cycle_of_map cycle) with member | endless
    · exact .inl member
    · rw [endless]
      exact .inr rfl
  back root pending path id cycle := faithful.back root pending path id (eq_cycle_of_map cycle)

/-- A step into a resolved node is checked against the ids in expansion. -/
theorem within
    {path : FieldPath}
    {node canonical : Node}
    {descend : List String → Except SchemaError α}
    (resolved : registry.resolveAt path node = .ok canonical)
    (below : ∀ inside, Resource.within stack path node = .ok inside →
      Faithful registry inside canonical.references (descend inside) made)
    (endless : ∀ id, registry.get? id = some canonical →
      ∀ inside, id ∈ inside → ∀ place, descend inside = .error (.referenceCycle place id) →
        made = none) :
    Faithful registry stack node.frontier (Resource.within stack path node >>= descend) made := by
  cases named : node.reference? with
  | none =>
      have same : registry.resolveAt path node = .ok node :=
        Registry.resolveAt_of_reference?_none registry path named
      obtain rfl : node = canonical := Except.ok.inj (same.symm.trans resolved)
      have entered : Resource.within stack path node = .ok stack := by
        simp [Resource.within, named]
      rw [Node.frontier_of_reference?_none named, entered, ok_bind]
      exact below stack entered
  | some name =>
      rw [Node.frontier_of_reference?_some named]
      have target : registry.target path node name = .ok canonical := by
        rw [Registry.resolveAt, named] at resolved
        exact resolved
      by_cases inside : name ∈ stack
      · have blocked : Resource.within stack path node = .error (.referenceCycle path name) := by
          simp [Resource.within, named, inside]
        rw [blocked, error_bind]
        refine ⟨fun ended => absurd rfl (ended path name), ?_, ?_⟩
        · rintro place id cycle
          cases cycle
          exact .inl inside
        · rintro root pending place id cycle
          cases cycle
          have here := pending node (List.mem_singleton.mpr rfl)
          exact ⟨⟨node, here.met, named⟩, here.led name inside name named⟩
      · have entered : Resource.within stack path node = .ok (name :: stack) := by
          simp [Resource.within, named, inside]
        rw [entered, ok_bind]
        have faithful := below (name :: stack) entered
        refine ⟨faithful.agrees, ?_, ?_⟩
        · intro place id cycle
          rcases faithful.ends place id cycle with member | ended
          · rcases List.mem_cons.mp member with rfl | outer
            · exact .inr (endless id (Registry.target_eq_ok_iff.mp target).1 _
                List.mem_cons_self place cycle)
            · exact .inl outer
          · exact .inr ended
        · intro root pending
          refine faithful.back root ?_
          intro reference member
          exact (pending node (List.mem_singleton.mpr rfl)).opened named target member

/-- A search that starts anew below a resolved node has no ids in expansion. -/
theorem afresh
    {path : FieldPath}
    {node canonical : Node}
    (resolved : registry.resolveAt path node = .ok canonical)
    (faithful : Faithful registry [] canonical.references checked made) :
    Faithful registry stack node.frontier checked made := by
  refine ⟨faithful.agrees, ?_, ?_⟩
  · intro place id cycle
    rcases faithful.ends place id cycle with impossible | endless
    · cases impossible
    · exact .inr endless
  · intro root pending
    refine faithful.back root fun reference member => ⟨?_, by simp⟩
    cases named : node.reference? with
    | none =>
        have same : registry.resolveAt path node = .ok node :=
          Registry.resolveAt_of_reference?_none registry path named
        obtain rfl : node = canonical := Except.ok.inj (same.symm.trans resolved)
        rw [Node.frontier_of_reference?_none named] at pending
        exact (pending reference member).met
    | some name =>
        rw [Node.frontier_of_reference?_some named] at pending
        rw [Registry.resolveAt, named] at resolved
        exact (pending node (List.mem_singleton.mpr rfl)).met.of_target named resolved member

end Faithful

/-- The search goes from an array into its element. -/
theorem faithful_checkedElement_array
    {registry : Registry}
    {stack : List String}
    {path : FieldPath}
    {declaration : Declaration}
    {facets : ArrayFacets}
    {element inner : Node}
    (resolved : registry.resolveAt path element = .ok inner)
    (below : ∀ inside, within stack path element = .ok inside →
      Faithful registry inside inner.references (checkedElement registry inside path inner)
        (elementType registry path inner)) :
    Faithful registry stack (Node.array declaration facets element).references
      (checkedElement registry stack path (.array declaration facets element))
      (elementType registry path (.array declaration facets element)) := by
  rw [checkedElement_array, elementType, resolved, ok_bind, Node.references_array]
  apply Faithful.within resolved
  · intro inside entered
    exact (below inside entered).map ElementType.list
  · intro id found inside member place cycle
    dsimp only
    rw [elementType_eq_none_of_cycle found member (Faithful.eq_cycle_of_map cycle)]
    rfl

/-- The search for an element type agrees with its checked form unless that one comes
back to a reference; then the search has no end. -/
theorem faithful_checkedElement
    (registry : Registry)
    (stack : List String)
    (path : FieldPath)
    (canonical : Node) :
    Faithful registry stack canonical.references (checkedElement registry stack path canonical)
      (elementType registry path canonical) := by
  induction stack, canonical using checkedElement_induct registry path with
  | scalar stack declaration facets =>
      rw [checkedElement, elementType]
      exact .of_ended fun path id => by simp
  | object stack declaration facets children =>
      rw [checkedElement, elementType]
      exact .of_ended fun path id => by simp
  | unresolved stack declaration facets element cause failed =>
      rw [checkedElement_array, elementType, failed]
      refine .of_ended fun place id same => ?_
      cases same
      exact Registry.resolveAt_ne_cycle failed
  | array stack declaration facets element inner resolved below =>
      exact faithful_checkedElement_array resolved below

/-- One computation at two paths: the other has every result of the first, and comes back to
every reference that the first comes back to. -/
structure HoldsElsewhere (here there : Except SchemaError α) : Prop where
  result : ∀ value, here = .ok value → there = .ok value
  cycle : ∀ path id, here = .error (.referenceCycle path id) →
    ∃ place, there = .error (.referenceCycle place id)

namespace HoldsElsewhere

theorem ok (value : α) : HoldsElsewhere (.ok value) (.ok value) where
  result _ same := same
  cycle _ _ impossible := nomatch impossible

theorem error
    {cause : SchemaError}
    {there : Except SchemaError α}
    (cycle : ∀ path id, cause = .referenceCycle path id →
      ∃ place, there = .error (.referenceCycle place id)) :
    HoldsElsewhere (.error cause) there where
  result _ impossible := nomatch impossible
  cycle path id same := cycle path id (Except.error.inj same)

theorem map
    {here there : Except SchemaError α}
    (holds : HoldsElsewhere here there)
    (change : α → β) :
    HoldsElsewhere (here.map change) (there.map change) := by
  cases here with
  | ok value =>
      rw [holds.result value rfl]
      exact .ok (change value)
  | error cause =>
      apply error
      rintro path id rfl
      obtain ⟨place, same⟩ := holds.cycle path id rfl
      exact ⟨place, by rw [same]; rfl⟩

theorem bind
    {here there : Except SchemaError α}
    {next nextThere : α → Except SchemaError β}
    (first : HoldsElsewhere here there)
    (holds : ∀ value, here = .ok value → HoldsElsewhere (next value) (nextThere value)) :
    HoldsElsewhere (here >>= next) (there >>= nextThere) := by
  cases here with
  | ok value =>
      rw [first.result value rfl]
      exact holds value rfl
  | error cause =>
      apply error
      rintro path id rfl
      obtain ⟨place, same⟩ := first.cycle path id rfl
      exact ⟨place, by rw [same]; rfl⟩

theorem resolveAt
    (registry : Registry)
    (path other : FieldPath)
    (node : Node) :
    HoldsElsewhere (registry.resolveAt path node) (registry.resolveAt other node) where
  result _ resolved := Registry.resolveAt_at resolved other
  cycle _ _ impossible := (Registry.resolveAt_ne_cycle impossible).elim

theorem within
    (stack : List String)
    (path other : FieldPath)
    (node : Node) :
    HoldsElsewhere (Resource.within stack path node) (Resource.within stack other node) := by
  unfold Resource.within
  cases node.reference? with
  | none => exact .ok stack
  | some id =>
      dsimp only
      split
      · apply error
        rintro place name ⟨⟩
        exact ⟨other, rfl⟩
      · exact .ok (id :: stack)

/-- The checked search for an element type depends on its path in its errors only. -/
theorem checkedElement
    (registry : Registry)
    (stack : List String)
    (path other : FieldPath)
    (canonical : Node) :
    HoldsElsewhere (Resource.checkedElement registry stack path canonical)
      (Resource.checkedElement registry stack other canonical) := by
  induction stack, canonical using checkedElement_induct registry path with
  | scalar stack declaration facets =>
      simp only [Resource.checkedElement]
      exact .ok _
  | object stack declaration facets children =>
      simp only [Resource.checkedElement]
      exact .ok _
  | unresolved stack declaration facets element cause failed =>
      rw [checkedElement_array, checkedElement_array]
      refine (resolveAt registry path other element).bind fun inner resolved => ?_
      rw [failed] at resolved
      cases resolved
  | array stack declaration facets element inner resolved below =>
      rw [checkedElement_array, checkedElement_array, resolved,
        Registry.resolveAt_at resolved other, ok_bind, ok_bind]
      exact (within stack path other element).bind fun inside entered =>
        (below inside entered).map ElementType.list

end HoldsElsewhere

/-- A search for an element type that ends comes back to no reference. -/
theorem avoids_of_elementType_some
    {registry : Registry}
    {canonical : Node}
    {made : Except SchemaError ElementType}
    {other : FieldPath}
    (searched : elementType registry other canonical = some made)
    (path : FieldPath)
    (id : String) :
    Avoids id (checkedElement registry [] path canonical) made := by
  have elsewhere := HoldsElsewhere.checkedElement registry [] path other canonical
  have faithful := faithful_checkedElement registry [] other canonical
  cases outcome : checkedElement registry [] path canonical with
  | ok type =>
      have there := elsewhere.result type outcome
      have same := faithful.agrees (by simp [there])
      rw [searched, there] at same
      exact ⟨type, Option.some.inj same⟩
  | error cause =>
      rintro place rfl
      obtain ⟨there, cycle⟩ := elsewhere.cycle place id outcome
      rcases faithful.ends there id cycle with impossible | endless
      · cases impossible
      · rw [searched] at endless
        cases endless

end Resource
end SchemaCompiler
